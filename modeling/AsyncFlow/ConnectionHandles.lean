import AsyncFlow.RingCounters
import AsyncFlow.SlotRecycling

/-!
# Connection handles are safe

The free list, the retired list and the tail of a connection table stay in step
over every run, and a pair of slot and generation never names another connection
than its own, until the generations of the slot wrap around.
-/

namespace AsyncFlow

open Function List Option

namespace Table

open ConnectionTable

variable {state after : TableState} {action : Action}

theorem nextGeneration_eq (generation : Nat) :
    nextGeneration generation = Ring.skipZero generationValues generation := rfl

def generationAt (acquisitions : Nat) : Option Nat :=
  if acquisitions = 0 then none else some (Ring.skipZeroAt generationValues acquisitions)

structure Inv (state : TableState) : Prop where
  free : FreeSlots state.table (state.acquired.map (·.index))
  tail : state.table.connections.getLast? = some none →
    state.acquired.map (·.index) = some (state.table.connections.length - 1)
  covered : state.table.connections.length ≤ state.table.generations.length
  numbered : ∀ slot : Nat, state.table.generations[slot]? = generationAt (state.acquisitions slot)
  vacant : ∀ slot, state.acquired = some slot → state.table.connections[slot.index]? = some none ∧
      state.table.generations[slot.index]? = some slot.generation ∧
        ∀ creation ∈ state.created, creation.slot.index = slot.index →
          creation.number < state.acquisitions slot.index
  occupants : ∀ (slot : Nat) (connection : SlotConnection),
    state.table.connections[slot]? = some (some connection) →
      state.table.generations[slot]? = some connection.generation ∧
        ⟨connection.serial, ⟨slot, connection.generation⟩, state.acquisitions slot⟩ ∈ state.created
  creations : ∀ creation ∈ state.created, 1 ≤ creation.number ∧
    creation.number ≤ state.acquisitions creation.slot.index ∧
      creation.slot.generation = Ring.skipZeroAt generationValues creation.number
  unique : ∀ first ∈ state.created, ∀ second ∈ state.created,
    first.slot.index = second.slot.index → first.number = second.number →
      first.serial = second.serial
  closed : ∀ (slot : Nat) (connection : SlotConnection),
    state.table.connections[slot]? = some (some connection) → connection.alive = false →
      ⟨slot, connection.generation⟩ ∈ state.closing ∨
        ⟨slot, connection.generation⟩ ∈ state.table.retired

theorem inv_start : Inv start where
  free := ⟨nodup_nil, fun _ inside => by simp [start, new] at inside,
    fun _ below => by simp [start, new] at below⟩
  tail := fun last => by simp [start, new] at last
  covered := Nat.le_refl 0
  numbered := fun slot => by simp [start, new, generationAt]
  vacant := fun _ acquired => by simp [start] at acquired
  occupants := fun _ _ occupied => by simp [start, new] at occupied
  creations := fun _ inside => by simp [start] at inside
  unique := fun _ inside => by simp [start] at inside
  closed := fun _ _ occupied => by simp [start, new] at occupied

/-! ### Acquiring a slot -/

theorem generationAt_succ (acquisitions : Nat) : generationAt (acquisitions + 1) =
      some (Ring.skipZeroAt generationValues (acquisitions + 1)) :=
  if_neg (Nat.succ_ne_zero acquisitions)

theorem numbered_advance {generations : List Nat} {acquisitions : Nat → Nat}
    (numbered : ∀ slot : Nat, generations[slot]? = generationAt (acquisitions slot)) {slot : Nat}
    (inside : slot < generations.length) : nextGeneration (generations.getD slot 0) =
        Ring.skipZeroAt generationValues (acquisitions slot + 1) ∧
      ∀ other : Nat, (generations.set slot (nextGeneration (generations.getD slot 0)))[other]? =
        generationAt (update acquisitions slot (acquisitions slot + 1) other) := by
  have acquired : acquisitions slot ≠ 0 := fun never => by
    have unknown := numbered slot
    simp [never, generationAt, inside] at unknown
  have next : nextGeneration (generations.getD slot 0) =
      Ring.skipZeroAt generationValues (acquisitions slot + 1) := by
    rw [getD_eq_getElem?_getD, numbered slot, generationAt, if_neg acquired,
      getD_some, nextGeneration_eq]
    exact Ring.skipZero_skipZeroAt (by decide) (Nat.one_le_iff_ne_zero.mpr acquired)
  refine ⟨next, fun other => ?_⟩
  by_cases same : slot = other
  · subst same
    rw [getElem?_set_self inside, update_self, next, generationAt_succ]
  · rw [getElem?_set_ne same, update_of_ne (Ne.symm same), numbered]

structure Acquires (state : TableState) (table : ConnectionTable) (slot : ConnectionSlot) :
    Prop where
  free : FreeSlots table (some slot.index)
  tail : table.connections.getLast? = some none → slot.index = table.connections.length - 1
  covered : table.connections.length ≤ table.generations.length
  empty : table.connections[slot.index]? = some none
  same : ∀ (index : Nat) (connection : SlotConnection),
    table.connections[index]? = some (some connection) ↔
      state.table.connections[index]? = some (some connection)
  numbered : ∀ index : Nat, table.generations[index]? =
    generationAt (update state.acquisitions slot.index (state.acquisitions slot.index + 1) index)
  generation : slot.generation =
    Ring.skipZeroAt generationValues (state.acquisitions slot.index + 1)
  retired : table.retired = state.table.retired

theorem acquires (inv : Inv state) (idle : state.acquired = none) :
    Acquires state state.table.acquireConnectionSlot.1 state.table.acquireConnectionSlot.2 := by
  have free := inv.free
  have tail := inv.tail
  rw [idle] at free tail
  have full : state.table.connections.getLast? ≠ some none := fun last => by
    simpa using tail last
  unfold acquireConnectionSlot
  split
  · rename_i slot last
    have isFree : slot ∈ state.table.free := mem_of_getLast? last
    have empty := (free.sound slot isFree).1
    have inside : slot < state.table.generations.length :=
      Nat.lt_of_lt_of_le (List.getElem?_eq_some_iff.mp empty).1 inv.covered
    obtain ⟨generation, numbered⟩ := numbered_advance inv.numbered inside
    have popped := free.popFree last
    exact ⟨{ popped with }, fun last => absurd last full,
      by simpa [advanceGeneration] using inv.covered, empty, fun _ _ => Iff.rfl, numbered,
      generation, rfl⟩
  · rename_i nothing
    have grown := free.grow (getLast?_eq_none_iff.mp nothing) full
    have empty : (state.table.connections ++ [none])[state.table.connections.length]? =
        some none := getElem?_concat_length
    have same : ∀ (index : Nat) (connection : SlotConnection),
        (state.table.connections ++ [none])[index]? = some (some connection) ↔
          state.table.connections[index]? = some (some connection) := by
      intro index connection
      by_cases inside : index < state.table.connections.length
      · rw [getElem?_append_left inside]
      · have beyond : state.table.connections[index]? = none := getElem?_eq_none (by omega)
        rw [getElem?_append_right (by omega), beyond, getElem?_singleton]
        split <;> simp
    dsimp only
    split
    · rename_i missing
      have first : state.acquisitions state.table.connections.length = 0 := by
        have unknown := inv.numbered state.table.connections.length
        rw [getElem?_eq_none (by simpa using missing), generationAt] at unknown
        by_contra acquired
        simp [acquired] at unknown
      refine ⟨{ grown with }, by simp, ?_, empty, same, ?_, ?_, rfl⟩
      · simpa using inv.covered
      · intro index
        have exactly : state.table.generations.length = state.table.connections.length :=
          Nat.le_antisymm missing inv.covered
        by_cases isNew : index = state.table.connections.length
        · rw [isNew, update_self, first, ← exactly]
          exact getElem?_concat_length
        · rw [update_of_ne isNew, ← inv.numbered index]
          rcases Nat.lt_or_gt_of_ne isNew with below | above
          · exact getElem?_append_left (by omega)
          · rw [getElem?_eq_none (show state.table.generations.length ≤ index by omega)]
            exact getElem?_eq_none (by simp; omega)
      · rw [first]
        rfl
    · rename_i known
      obtain ⟨generation, numbered⟩ := numbered_advance inv.numbered (Nat.not_le.mp known)
      refine ⟨{ grown with }, by simp [advanceGeneration], ?_, empty,
        same, numbered, generation, rfl⟩
      simp only [advanceGeneration, length_append, length_singleton, length_set]
      exact Nat.not_le.mp known

/-! ### Closing a connection -/

theorem markClosed_eq_none_iff (table : ConnectionTable) (index slot : Nat) :
    (table.markClosed index).connections[slot]? = some none ↔
      table.connections[slot]? = some none := by
  rw [markClosed, getElem?_modify]
  split <;> simp

theorem markClosed_eq_some {table : ConnectionTable} {index slot : Nat}
    {connection : SlotConnection}
    (occupied : (table.markClosed index).connections[slot]? = some (some connection)) :
    ∃ before, table.connections[slot]? = some (some before) ∧
      connection.serial = before.serial ∧ connection.generation = before.generation ∧
        (connection = before ∨ index = slot) := by
  rw [markClosed, getElem?_modify] at occupied
  split at occupied
  · rename_i same
    obtain ⟨before, was, changed⟩ := map_eq_some_iff.mp occupied
    obtain ⟨before, rfl, rfl⟩ := map_eq_some_iff.mp changed
    exact ⟨before, was, rfl, rfl, .inr same⟩
  · exact ⟨connection, by simpa using occupied, rfl, rfl, .inl rfl⟩

namespace Inv

variable {table : ConnectionTable} {slot : ConnectionSlot}

section

variable (inv : Inv state)

include inv

theorem acquire (taken : Acquires state table slot) : Inv { state with
      table := table
      acquired := some slot
      acquisitions := update state.acquisitions slot.index
        (state.acquisitions slot.index + 1) } := by
  have more : ∀ index, state.acquisitions index ≤
      update state.acquisitions slot.index (state.acquisitions slot.index + 1) index := by
    intro index
    by_cases same : index = slot.index
    · rw [same, update_self]
      exact Nat.le_succ _
    · rw [update_of_ne same]
  refine ⟨taken.free, fun last => congrArg some (taken.tail last), taken.covered, taken.numbered,
    ?_, ?_, ?_, inv.unique, ?_⟩
  · rintro _ ⟨rfl⟩
    refine ⟨taken.empty, ?_, fun creation inside same => ?_⟩
    · rw [taken.numbered, update_self, generationAt_succ, taken.generation]
    · dsimp only
      rw [update_self]
      exact Nat.lt_succ_of_le (same ▸ (inv.creations creation inside).2.1)
  · intro index connection occupied
    have different : index ≠ slot.index := fun same => by
      simp [same, taken.empty] at occupied
    obtain ⟨generation, created⟩ := inv.occupants index connection
      ((taken.same index connection).mp occupied)
    simp only [taken.numbered, update_of_ne different, ← inv.numbered]
    exact ⟨generation, created⟩
  · intro creation inside
    obtain ⟨started, below, generation⟩ := inv.creations creation inside
    exact ⟨started, Nat.le_trans below (more _), generation⟩
  · intro index connection occupied dead
    rw [taken.retired]
    exact inv.closed index connection ((taken.same index connection).mp occupied) dead

theorem create (acquired : state.acquired = some slot) : Inv { state with
      table := state.table.store slot state.nextSerial
      acquired := none
      nextSerial := state.nextSerial + 1
      created := state.created ++ [⟨state.nextSerial, slot, state.acquisitions slot.index⟩] } := by
  obtain ⟨empty, generation, fresh⟩ := inv.vacant slot acquired
  have inside : slot.index < state.table.connections.length :=
    (List.getElem?_eq_some_iff.mp empty).1
  have free := inv.free
  rw [acquired] at free
  have numbered := inv.numbered slot.index
  rw [generation, generationAt] at numbered
  split at numbered
  · simp at numbered
  rename_i often
  have occupied : ∀ (index : Nat) (connection : SlotConnection),
      (state.table.store slot state.nextSerial).connections[index]? = some (some connection) →
        index = slot.index ∧ connection = ⟨state.nextSerial, slot.generation, true⟩ ∨
          state.table.connections[index]? = some (some connection) := by
    intro index connection isThere
    by_cases same : slot.index = index
    · subst same
      rw [ConnectionTable.store, getElem?_set_self inside] at isThere
      exact .inl ⟨rfl, by simpa using isThere.symm⟩
    · rw [ConnectionTable.store, getElem?_set_ne same] at isThere
      exact .inr isThere
  refine ⟨free.store _ inside, ?_, ?_, inv.numbered, by simp, ?_, ?_, ?_, ?_⟩
  · intro last
    rw [getLast?_eq_getElem?, ConnectionTable.store, length_set] at last
    by_cases atEnd : slot.index = state.table.connections.length - 1
    · rw [← atEnd, getElem?_set_self inside] at last
      simp at last
    · rw [getElem?_set_ne atEnd, ← getLast?_eq_getElem?] at last
      have := inv.tail last
      simp [acquired, atEnd] at this
  · simpa [ConnectionTable.store] using inv.covered
  · intro index connection isThere
    rcases occupied index connection isThere with ⟨rfl, rfl⟩ | isThere
    · exact ⟨generation, by simp⟩
    · obtain ⟨generation, created⟩ := inv.occupants index connection isThere
      exact ⟨generation, mem_append.mpr (.inl created)⟩
  · intro creation isThere
    rcases mem_append.mp isThere with isThere | last
    · exact inv.creations creation isThere
    · rw [mem_singleton.mp last]
      exact ⟨Nat.one_le_iff_ne_zero.mpr often, Nat.le_refl _, by simpa using numbered⟩
  · intro first inFirst second inSecond sameSlot sameNumber
    rcases mem_append.mp inFirst with inFirst | isNew
    · rcases mem_append.mp inSecond with inSecond | isNew
      · exact inv.unique first inFirst second inSecond sameSlot sameNumber
      · rw [mem_singleton.mp isNew] at sameSlot sameNumber
        exact absurd sameNumber (Nat.ne_of_lt (fresh first inFirst sameSlot))
    · rcases mem_append.mp inSecond with inSecond | alsoNew
      · rw [mem_singleton.mp isNew] at sameSlot sameNumber
        exact absurd sameNumber.symm (Nat.ne_of_lt (fresh second inSecond sameSlot.symm))
      · rw [mem_singleton.mp isNew, mem_singleton.mp alsoNew]
  · intro index connection isThere dead
    rcases occupied index connection isThere with ⟨rfl, rfl⟩ | isThere
    · simp at dead
    · exact inv.closed index connection isThere dead

theorem subtable {closing : List ConnectionSlot} (free : FreeSlots table none)
    (full : table.connections.getLast? ≠ some none)
    (shorter : table.connections.length ≤ state.table.connections.length)
    (generations : table.generations = state.table.generations)
    (old : ∀ (slot : Nat) (connection : SlotConnection),
      table.connections[slot]? = some (some connection) →
        state.table.connections[slot]? = some (some connection))
    (closed : ∀ (slot : Nat) (connection : SlotConnection),
      table.connections[slot]? = some (some connection) → connection.alive = false →
        ⟨slot, connection.generation⟩ ∈ closing ∨ ⟨slot, connection.generation⟩ ∈ table.retired) :
    Inv { state with table := table, acquired := none, closing := closing } where
  free := free
  tail := fun last => absurd last full
  covered := generations ▸ Nat.le_trans shorter inv.covered
  numbered := fun slot => generations ▸ inv.numbered slot
  vacant := by simp
  occupants := fun slot connection occupied => by
    rw [generations]
    exact inv.occupants slot connection (old slot connection occupied)
  creations := inv.creations
  unique := inv.unique
  closed := closed

theorem createFails (acquired : state.acquired = some slot) : Inv { state with
      table := state.table.releaseUnusedConnectionSlot slot
      acquired := none } := by
  obtain ⟨empty, generation, -⟩ := inv.vacant slot acquired
  have free := inv.free
  rw [acquired] at free
  rw [releaseUnusedConnectionSlot, if_pos ⟨generation, empty⟩]
  obtain ⟨freeAfter, trimmed, full⟩ := trimEmptyTailSlots_spec (free.pushFree empty)
  have pushed := pushFree_fields state.table slot.index
  have old : ∀ (slot' : Nat) (connection : SlotConnection),
      (state.table.pushFree slot.index).trimEmptyTailSlots.connections[slot']? =
          some (some connection) →
        state.table.connections[slot']? = some (some connection) := fun _ _ occupied =>
    pushed.1 ▸ (trimmed.occupied_iff _ _).mp occupied
  refine inv.subtable freeAfter full (pushed.1 ▸ trimmed.shorter)
    (trimmed.generations.trans pushed.2.1) old fun slot' connection occupied dead => ?_
  rw [trimmed.retired, pushed.2.2]
  exact inv.closed slot' connection (old slot' connection occupied) dead

section

variable (idle : state.acquired = none)

include idle

theorem settled : FreeSlots state.table none ∧ state.table.connections.getLast? ≠ some none := by
  have free := inv.free
  have tail := inv.tail
  rw [idle] at free tail
  exact ⟨free, fun last => by simpa using tail last⟩

theorem trim : Inv { state with table := state.table.trimEmptyTailSlots } := by
  obtain ⟨free, trimmed, full⟩ := trimEmptyTailSlots_spec (inv.settled idle).1
  have after := inv.subtable free full trimmed.shorter trimmed.generations
    (fun slot connection => (trimmed.occupied_iff slot connection).mp)
    fun slot connection occupied dead => by
      rw [trimmed.retired]
      exact inv.closed slot connection ((trimmed.occupied_iff slot connection).mp occupied) dead
  rwa [← idle] at after

theorem reap : Inv { state with table := state.table.reapRetiredConnections } := by
  obtain ⟨free, full⟩ := inv.settled idle
  have reaped := reapRetiredConnections_spec free full
  have after := inv.subtable reaped.free reaped.full reaped.shorter reaped.generations reaped.old
    fun slot connection occupied dead => by
      have before := reaped.old slot connection occupied
      rcases inv.closed slot connection before dead with closing | retired
      · exact .inl closing
      · exact absurd occupied (reaped.emptied slot connection before dead
          (inv.occupants slot connection before).1 retired)
  rwa [← idle] at after

theorem retire (slot : ConnectionSlot) : Inv { state with
      table := state.table.retireConnection slot
      closing := state.closing.erase slot } := by
  obtain ⟨free, full⟩ := inv.settled idle
  have after : Inv { state with
      table := state.table.retireConnection slot
      acquired := none
      closing := state.closing.erase slot } := by
    refine inv.subtable ⟨free.nodup, free.sound, free.complete⟩ full (Nat.le_refl _) rfl
      (fun _ _ => id) fun index connection occupied dead => ?_
    rcases inv.closed index connection occupied dead with closing | retired
    · by_cases same : (⟨index, connection.generation⟩ : ConnectionSlot) = slot
      · exact .inr (mem_append.mpr (.inr (by simp [same])))
      · exact .inl ((mem_erase_of_ne same).mpr closing)
    · exact .inr (mem_append.mpr (.inl retired))
  rwa [← idle] at after

end

theorem close {index : Nat} {connection : SlotConnection}
    (occupied : state.table.connections[index]? = some (some connection)) : Inv { state with
      table := state.table.markClosed index
      closing := state.closing ++ [⟨index, connection.generation⟩] } := by
  have empty := markClosed_eq_none_iff state.table index
  have length : (state.table.markClosed index).connections.length =
      state.table.connections.length := length_modify ..
  refine ⟨inv.free.congr length empty rfl, fun last => ?_, length ▸ inv.covered, inv.numbered,
    fun slot acquired => ?_, fun slot other isThere => ?_, inv.creations, inv.unique,
    fun slot other isThere dead => ?_⟩
  · rw [getLast?_eq_getElem?, empty, length, ← getLast?_eq_getElem?] at last
    rw [length]
    exact inv.tail last
  · rw [empty]
    exact inv.vacant slot acquired
  · obtain ⟨before, was, serial, generation, -⟩ := markClosed_eq_some isThere
    rw [serial, generation]
    exact inv.occupants slot before was
  · obtain ⟨before, was, serial, generation, same⟩ := markClosed_eq_some isThere
    rw [generation]
    rcases same with rfl | rfl
    · exact (inv.closed slot other was dead).imp_left fun closing =>
        mem_append.mpr (.inl closing)
    · cases occupied.symm.trans was
      exact .inl (mem_append.mpr (.inr (by simp)))

end

end Inv

theorem inv_of_step (inv : Inv state) (steps : step state action = some after) : Inv after := by
  unfold step at steps
  split at steps
  · rename_i slot acquired
    cases action <;> simp only [stepAcquired, Option.some.injEq, reduceCtorEq] at steps
    case create => exact steps ▸ inv.create acquired
    case createFails => exact steps ▸ inv.createFails acquired
  · rename_i idle
    cases action <;> simp only [stepIdle, Option.some.injEq, reduceCtorEq] at steps
    case acquire => exact steps ▸ inv.acquire (acquires inv idle)
    case close index =>
        split at steps
        · rename_i connection occupied
          split at steps
          · exact Option.some.inj steps ▸ inv.close occupied
          · contradiction
        · contradiction
    case retire slot =>
        split at steps
        · exact Option.some.inj steps ▸ inv.retire idle slot
        · contradiction
    case reap => exact steps ▸ inv.reap idle
    case trim => exact steps ▸ inv.trim idle

theorem inv_of_reachable (reached : system.Reachable state) : Inv state := by
  induction reached with
  | start starts => exact (show _ = start from starts) ▸ inv_start
  | next _ _ steps ih => exact inv_of_step ih steps

structure InStep (state : TableState) : Prop where
  freeNodup : state.table.free.Nodup
  /-- The free slots are the empty ones, except the one just acquired. -/
  mem_free_iff : ∀ slot : Nat, slot ∈ state.table.free ↔
    state.table.connections[slot]? = some none ∧ state.acquired.map (·.index) ≠ some slot
  /-- Between operations the table does not end in an empty slot. -/
  full : state.acquired = none → state.table.connections.getLast? ≠ some none
  /-- A slot of a closed connection is going to be emptied. -/
  closed : ∀ (slot : Nat) (connection : SlotConnection),
    state.table.connections[slot]? = some (some connection) → connection.alive = false →
      ⟨slot, connection.generation⟩ ∈ state.closing ∨
        ⟨slot, connection.generation⟩ ∈ state.table.retired

/-- A handle finds its own connection or none, until its slot has been acquired
as often as there are generations. -/
def HandlesSafe (state : TableState) : Prop :=
  ∀ creation ∈ state.created,
    state.acquisitions creation.slot.index - creation.number < 2 ^ 32 - 1 → ∀ connection,
        state.table.find creation.slot.index creation.slot.generation = some connection →
          connection.serial = creation.serial

theorem Inv.handlesSafe (inv : Inv state) : HandlesSafe state := by
  intro creation inside recent connection found
  obtain ⟨started, below, generation⟩ := inv.creations creation inside
  have occupied : state.table.connections[creation.slot.index]? = some (some connection) ∧
      connection.generation = creation.slot.generation := by
    unfold find at found
    split at found
    · split at found
      · contradiction
      · rename_i other occupied matched
        cases found
        simp only [Bool.or_eq_true, decide_eq_true_eq, not_or, not_not] at matched
        exact ⟨occupied, matched.2⟩
    · contradiction
  obtain ⟨-, created⟩ := inv.occupants _ _ occupied.1
  obtain ⟨startedLast, -, generationLast⟩ := inv.creations _ created
  refine inv.unique _ created _ inside rfl ?_
  have values : generationValues = 2 ^ 32 := rfl
  refine Ring.eq_of_skipZeroAt_eq startedLast started ?_ ?_
    (generationLast.symm.trans (occupied.2.trans generation))
  all_goals
    dsimp only
    omega

/-- Over every run of a shard the table and its lists are in step, and handles
name their own connection. -/
theorem inStep_and_handlesSafe {state : TableState} (reached : system.Reachable state) :
    InStep state ∧ HandlesSafe state := by
  have inv := inv_of_reachable reached
  refine ⟨⟨inv.free.nodup, fun slot => ⟨inv.free.sound slot, fun ⟨empty, other⟩ => ?_⟩,
    fun idle => (inv.settled idle).2, inv.closed⟩, inv.handlesSafe⟩
  by_cases last : slot + 1 < state.table.connections.length
  · exact inv.free.complete slot last empty other
  · have inside := (List.getElem?_eq_some_iff.mp empty).1
    have isLast : state.table.connections.length - 1 = slot := by omega
    have tail := inv.tail (by rw [getLast?_eq_getElem?, isLast, empty])
    rw [isLast] at tail
    exact absurd tail other

theorem inStep_and_handlesSafe_trimmed : ∃ state, system.Reachable state ∧ HandlesSafe state ∧
      state.table.connections.length = 1 ∧ state.table.find 0 1 = none ∧
        (state.table.find 0 2).map (·.serial) = some 1 := by
  obtain ⟨state, reached, observed⟩ := system.exists_reachableUnder
    (fun _ _ => True) (show system.initial start from rfl)
    [.acquire, .create, .close 0, .retire ⟨0, 1⟩, .reap, .acquire, .create]
    (fun state => state.table.connections.length = 1 ∧ state.table.find 0 1 = none ∧
      (state.table.find 0 2).map (·.serial) = some 1) (by decide)
  exact ⟨state, reached, (inStep_and_handlesSafe reached).2, observed⟩

end Table

end AsyncFlow
