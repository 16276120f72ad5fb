import AsyncFlow.ShardCallbacks

/-!
# Events of a batch reach their own channel

The events of a batch carry addresses of connections.  While one is handled, the
user may close other connections; those are destroyed right after, even if the
batch still has events for them.  Where no connection with an event left in the
batch is closed, every event finds its connection open.
-/

namespace AsyncFlow

namespace Table

open ConnectionTable

variable {slots slots' : TableState} {action : Action} {ref : ConnectionRef}

def Refers (ref : ConnectionRef) (connection : SlotConnection) : Prop :=
  connection.serial = ref.serial ∧ connection.generation = ref.slot.generation

theorem holds_iff : slots.holds ref = true ↔ ∃ connection,
      slots.table.connections[ref.slot.index]? = some (some connection) ∧
        Refers ref connection := by
  unfold TableState.holds Refers
  split <;> simp_all

theorem isOpen_iff : slots.isOpen ref = true ↔ ∃ connection,
      slots.table.connections[ref.slot.index]? = some (some connection) ∧
        Refers ref connection ∧ connection.alive = true := by
  unfold TableState.isOpen Refers
  split <;> simp_all [and_assoc]

theorem holds_of_isOpen (opened : slots.isOpen ref) : slots.holds ref := by
  obtain ⟨connection, occupied, refers, -⟩ := isOpen_iff.mp opened
  exact holds_iff.mpr ⟨connection, occupied, refers⟩

theorem eq_of_isOpen {other : ConnectionRef} (opened : slots.isOpen ref)
    (otherOpened : slots.isOpen other) (same : ref.slot.index = other.slot.index) :
    ref = other := by
  obtain ⟨connection, occupied, ⟨serial, generation⟩, -⟩ := isOpen_iff.mp opened
  obtain ⟨_, otherOccupied, ⟨otherSerial, otherGeneration⟩, -⟩ := isOpen_iff.mp otherOpened
  cases (same ▸ occupied).symm.trans otherOccupied
  cases ref with
  | mk _ slot =>
    cases other with
    | mk _ otherSlot =>
      cases slot
      cases otherSlot
      simp_all

section

variable (inv : Inv slots) (steps : step slots action = some slots')

include inv steps

theorem kept_of_step {index : Nat} {connection : SlotConnection}
    (occupied : slots.table.connections[index]? = some (some connection)) :
    (∃ later, slots'.table.connections[index]? = some (some later) ∧
        later.serial = connection.serial ∧ later.generation = connection.generation ∧
          (action ≠ .close index → later.alive = connection.alive)) ∨
      action = .reap ∧ connection.alive = false := by
  have same : slots'.table.connections[index]? = some (some connection) →
      (∃ later, slots'.table.connections[index]? = some (some later) ∧
        later.serial = connection.serial ∧ later.generation = connection.generation ∧
          (action ≠ .close index → later.alive = connection.alive)) ∨
      action = .reap ∧ connection.alive = false := fun stays =>
    .inl ⟨connection, stays, rfl, rfl, fun _ => rfl⟩
  unfold step at steps
  split at steps
  · rename_i slot acquired
    obtain ⟨empty, generation, -⟩ := inv.vacant slot acquired
    have different : slot.index ≠ index := fun isSame => by
      simp [isSame, occupied] at empty
    cases action <;> simp only [stepAcquired, Option.some.injEq, reduceCtorEq] at steps
    case create =>
        subst steps
        exact same (by rw [store, List.getElem?_set_ne different, occupied])
    case createFails =>
        subst steps
        refine same ?_
        have free := inv.free
        rw [acquired] at free
        obtain ⟨-, trimmed, -⟩ := trimEmptyTailSlots_spec (free.pushFree empty)
        rw [releaseUnusedConnectionSlot, if_pos ⟨generation, empty⟩, trimmed.occupied_iff,
          (pushFree_fields _ _).1]
        exact occupied
  · rename_i idle
    obtain ⟨free, full⟩ := inv.settled idle
    cases action <;> simp only [stepIdle, Option.some.injEq, reduceCtorEq] at steps
    case acquire =>
        subst steps
        exact same (((acquires inv idle).same index connection).mpr occupied)
    case close closed =>
        split at steps
        · split at steps
          · cases steps
            left
            simp only [markClosed, List.getElem?_modify, occupied]
            by_cases isSame : closed = index
            · exact ⟨{ connection with alive := false }, by simp [isSame], rfl, rfl,
                fun other => absurd (by rw [isSame]) other⟩
            · exact ⟨connection, by simp [isSame], rfl, rfl, fun _ => rfl⟩
          · contradiction
        · contradiction
    case retire slot =>
        split at steps
        · cases steps
          exact same occupied
        · contradiction
    case reap =>
        subst steps
        rcases (reapRetiredConnections_spec free full).kept index connection occupied with
          stays | ⟨dead, -⟩
        · exact same stays
        · exact .inr ⟨rfl, dead⟩
    case trim =>
        subst steps
        obtain ⟨-, trimmed, -⟩ := trimEmptyTailSlots_spec free
        exact same ((trimmed.occupied_iff index connection).mpr occupied)

theorem holds_of_step (held : slots.holds ref) (keeps : action ≠ .reap) : slots'.holds ref := by
  obtain ⟨connection, occupied, serial, generation⟩ := holds_iff.mp held
  rcases kept_of_step inv steps occupied with ⟨later, isThere, sameSerial, same, -⟩ | ⟨reaps, -⟩
  · exact holds_iff.mpr ⟨later, isThere, sameSerial.trans serial, same.trans generation⟩
  · exact absurd reaps keeps

theorem isOpen_of_step (opened : slots.isOpen ref) (keeps : action ≠ .close ref.slot.index)
    : slots'.isOpen ref := by
  obtain ⟨connection, occupied, ⟨serial, generation⟩, lives⟩ := isOpen_iff.mp opened
  rcases kept_of_step inv steps occupied with
    ⟨later, isThere, sameSerial, sameGeneration, same⟩ | ⟨-, dead⟩
  · exact isOpen_iff.mpr ⟨later, isThere,
      ⟨sameSerial.trans serial, sameGeneration.trans generation⟩, (same keeps).trans lives⟩
  · simp [lives] at dead

end

theorem acquired_of_step (steps : step slots action = some slots') (other : action ≠ .acquire) :
    slots'.acquired = none := by
  unfold step at steps
  split at steps <;> cases action <;> grind [stepAcquired, stepIdle]

end Table

namespace Shard

variable {state after : ShardState} {action : Action} {ref : ConnectionRef}

structure Settled (state : ShardState) : Prop where
  inv : Table.Inv state.slots
  idle : state.slots.acquired = none

inductive SlotsMove (before after : TableState) : Prop
  | same (unchanged : after = before)
  | one (action : Table.Action) (other : action ≠ .acquire)
      (steps : Table.step before action = some after)
  | two (acquiring : TableState) (action : Table.Action)
      (ends : action = .create ∨ action = .createFails)
      (acquires : Table.step before .acquire = some acquiring)
      (steps : Table.step acquiring action = some after)

theorem slotsMove_of_steps (steps : Steps state action after) :
    SlotsMove state.slots after.slots := by
  cases steps with
  | close top own opened closes => exact .one _ (by simp) closes
  | reap top reaps moves => exact .one _ (by simp) moves
  | retire top retires => exact .one _ (by simp) retires
  | @create starts acquiring slots slot user acquires acquired creates =>
    cases starts <;> exact .two acquiring .create (.inl rfl) acquires creates
  | createFails user acquires fails => exact .two _ .createFails (.inr rfl) acquires fails
  | _ => exact .same rfl

theorem Settled.steps (settled : Settled state) (steps : Steps state action after) :
    Settled after := by
  cases slotsMove_of_steps steps with
  | same unchanged => exact ⟨unchanged ▸ settled.inv, unchanged ▸ settled.idle⟩
  | one action other steps =>
    exact ⟨Table.inv_of_step settled.inv steps, Table.acquired_of_step steps other⟩
  | two acquiring action ends acquires steps =>
    have acquired := Table.inv_of_step settled.inv acquires
    refine ⟨Table.inv_of_step acquired steps, Table.acquired_of_step steps ?_⟩
    rcases ends with rfl | rfl <;> simp

theorem settled_of_reachable {allowed : ShardState → Action → Prop}
    (reached : system.ReachableUnder allowed state) : Settled state := by
  induction reached with
  | start starts =>
    obtain rfl : _ = start := starts
    exact ⟨Table.inv_start, rfl⟩
  | next _ _ steps ih => exact ih.steps (steps_of_step steps)

theorem isOpen_of_steps (settled : Settled state) (steps : Steps state action after)
    (opened : state.slots.isOpen ref) : after.slots.isOpen ref ∨
      action = .close ∧ state.stack.head?.bind ShardFrame.connection = some ref := by
  cases steps with
  | @close other frame rest slots top own otherOpened closes =>
    by_cases same : ref.slot.index = other.slot.index
    · have := Table.eq_of_isOpen opened otherOpened same
      exact .inr ⟨rfl, by simp [top, own, this]⟩
    · exact .inl (Table.isOpen_of_step settled.inv closes opened (by
        simpa using Ne.symm same))
  | reap top reaps moves => exact .inl (Table.isOpen_of_step settled.inv moves opened (by simp))
  | retire top retires =>
    exact .inl (Table.isOpen_of_step settled.inv retires opened (by simp))
  | @create starts acquiring slots slot user acquires acquired creates =>
    have middle := Table.isOpen_of_step settled.inv acquires opened (by simp)
    have final := Table.isOpen_of_step (Table.inv_of_step settled.inv acquires) creates middle
      (by simp)
    left
    cases starts <;> exact final
  | createFails user acquires fails =>
    have middle := Table.isOpen_of_step settled.inv acquires opened (by simp)
    exact .inl (Table.isOpen_of_step (Table.inv_of_step settled.inv acquires) fails middle
      (by simp))
  | _ => exact .inl opened

/-- A connection that is closed has no event left in the batch. -/
def closesHandled (state : ShardState) (action : Action) : Prop :=
  action = .close → ∀ ref ∈ state.batch, state.stack.head?.bind ShardFrame.connection ≠ some ref

instance (state : ShardState) (action : Action) : Decidable (closesHandled state action) :=
  inferInstanceAs (Decidable (_ → _))

theorem batch_isOpen (reached : system.ReachableUnder closesHandled state) :
    ∀ ref ∈ state.batch, state.slots.isOpen ref := by
  induction reached with
  | start starts =>
    obtain rfl : _ = start := starts
    simp [start]
  | @next state after action reached permitted steps ih =>
    have steps := steps_of_step steps
    have settled := settled_of_reachable reached
    have stays : ∀ ref ∈ state.batch, after.slots.isOpen ref := fun ref inside =>
      (isOpen_of_steps settled steps (ih ref inside)).elim id fun ⟨closes, own⟩ =>
        absurd own (permitted closes ref inside)
    cases steps with
    | fetch idle empty opened => exact opened
    | deliver idle next opened | skip idle next =>
      exact fun ref inside => stays ref (by rw [next]; exact List.mem_cons_of_mem _ inside)
    | @create starts acquiring slots slot user acquires acquired creates =>
      cases starts <;> exact stays
    | _ => exact stays

/-- As long as no connection with an event left in the batch is closed, none is
destroyed, and `on_event` is called for the connection of the next event, which is
still open. -/
theorem events_reach_open_connections {state : ShardState}
    (reached : system.ReachableUnder closesHandled state) :
    (∀ ref ∈ state.batch, state.slots.holds ref ∧ state.slots.isOpen ref) ∧
      ∀ active after, step state (.deliver active) = some after → ∃ ref batch,
        state.batch = ref :: batch ∧ after.batch = batch ∧ state.slots.holds ref ∧
          (after.stack = [] ∨ after.stack = [.onEvent ref] ∧ state.slots.isOpen ref) := by
  have opened := batch_isOpen reached
  refine ⟨fun ref inside => ⟨Table.holds_of_isOpen (opened ref inside), opened ref inside⟩,
    fun active after steps => ?_⟩
  cases steps_of_step steps with
  | @deliver _ ref batch idle next isOpen =>
    exact ⟨ref, batch, next, rfl, Table.holds_of_isOpen isOpen, .inr ⟨by simp [push, idle], isOpen⟩⟩
  | @skip _ ref batch idle next =>
    exact ⟨ref, batch, next, rfl, Table.holds_of_isOpen (opened ref (by simp [next])), .inl idle⟩

theorem events_reach_open_connections_ownClose :
    ∃ state, system.ReachableUnder closesHandled state ∧
      state.batch = [⟨1, ⟨1, 1⟩⟩] ∧ state.slots.holds ⟨0, ⟨0, 1⟩⟩ = false ∧
        state.slots.isOpen ⟨1, ⟨1, 1⟩⟩ := by
  obtain ⟨state, reached, observed⟩ := system.exists_reachableUnder
    closesHandled (show system.initial start from rfl)
    [.create true, .leave, .leave, .create true, .leave, .leave,
      .fetch [⟨0, ⟨0, 1⟩⟩, ⟨1, ⟨1, 1⟩⟩], .deliver true, .read, .enter ⟨0, ⟨0, 1⟩⟩, .close,
      .notify, .leave, .leave, .leave, .leave, .leave]
    (fun state => state.batch = [⟨1, ⟨1, 1⟩⟩] ∧ state.slots.holds ⟨0, ⟨0, 1⟩⟩ = false) (by decide)
  exact ⟨state, reached, observed.1, observed.2,
    ((events_reach_open_connections reached).1 _ (by rw [observed.1]; simp)).2⟩

/-- The handler of the first event closes the second connection, which is destroyed
right after; the next event of the batch carries its address. -/
theorem closed_connection_destroyed_before_event :
    ∃ state, system.Reachable state ∧ state.stack = [] ∧
      state.batch = [⟨1, ⟨1, 1⟩⟩] ∧ state.slots.holds ⟨1, ⟨1, 1⟩⟩ = false :=
  system.exists_reachableUnder (fun _ _ => True) (show system.initial start from rfl)
    [.create true, .leave, .leave, .create true, .leave, .leave,
      .fetch [⟨0, ⟨0, 1⟩⟩, ⟨1, ⟨1, 1⟩⟩], .deliver true, .read, .handle, .enter ⟨1, ⟨1, 1⟩⟩,
      .close, .notify, .leave, .leave, .leave, .leave, .leave, .leave]
    _ (by decide)

end Shard

end AsyncFlow
