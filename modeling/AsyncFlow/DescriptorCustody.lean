import AsyncFlow.AcceptSystem

/-!
# Who holds an accepted descriptor

A descriptor is held by the function that routes it, by a command or by an open
connection.  The copy that `handle_listener` keeps during `route_connection` does
not count.
-/

namespace AsyncFlow

open Function

open Table (Tidy)

/-- The descriptor that a call of `route_connection` holds. -/
def Routing.carries : Routing → List Nat
  | .create fd .starting => [fd]
  | .enqueue _ _ (.leaving true) => []
  | .enqueue fd _ _ => [fd]
  | .idle | .create _ _ => []

def AcceptFrame.carries : AcceptFrame → List Nat
  | .handleListener _ _ routing => routing.carries
  | .drainCommands batch (some (fd, .starting)) => fd :: batch.map AdoptCommand.fd
  | .drainCommands batch _ => batch.map AdoptCommand.fd
  | .closeNow _ | .stopOnOwner _ | .callback => []

namespace AcceptFrame

@[simp]
theorem carries_handleListener (listener accepted : Nat) (routing : Routing) :
    (handleListener listener accepted routing).carries = routing.carries := rfl

@[simp]
theorem carries_drainCommands (batch : List AdoptCommand) :
    (drainCommands batch none).carries = batch.map AdoptCommand.fd := rfl

@[simp]
theorem carries_callback : callback.carries = [] := rfl

@[simp]
theorem carries_closeNow (slot : ConnectionSlot) : (closeNow slot).carries = [] := rfl

@[simp]
theorem carries_stopOnOwner (phase : StopPhase) : (stopOnOwner phase).carries = [] := rfl

end AcceptFrame

@[simp]
theorem Routing.carries_idle : idle.carries = [] := rfl

namespace AcceptShard

def holds (shard : AcceptShard) (fd : Nat) : Nat :=
  (shard.stack.flatMap AcceptFrame.carries).count fd +
    (shard.commands.map AdoptCommand.fd).count fd + shard.connectionsWith fd

def withConnections (shard : AcceptShard) (slots : TableState) (fds : Nat → Nat) : AcceptShard :=
  { shard with slots := slots, fds := fds }

end AcceptShard

namespace Accept

variable {config : AcceptConfig} {state : AcceptState} {index fd item : Nat}
  {shard shard' : AcceptShard}

def holders (config : AcceptConfig) (state : AcceptState) (fd : Nat) : Nat :=
  ∑ index ∈ Finset.range config.shardCount, (state.shards index).holds fd

theorem holders_withShard (state : AcceptState) (inside : index < config.shardCount)
    (shard : AcceptShard) (fd : Nat) :
    holders config (state.withShard index shard) fd + (state.shards index).holds fd =
      holders config state fd + shard.holds fd := by
  have update : (fun other => ((state.withShard index shard).shards other).holds fd) =
      update (fun other => (state.shards other).holds fd) index (shard.holds fd) := by
    funext other
    by_cases same : other = index
    · subst same
      simp [AcceptState.withShard]
    · simp [AcceptState.withShard, same]
  unfold holders
  rw [update]
  exact sum_update_add (Finset.mem_range.mpr inside) _ _

/-! ### What the calls of the table do -/

theorem connectionsWith_of_openCount {slots : TableState}
    (same : ∀ test, slots.table.openCount test = shard.slots.table.openCount test) (fd : Nat) :
    (shard.withSlots slots).connectionsWith fd = shard.connectionsWith fd :=
  same _

theorem connectionsWith_close {slots : TableState} {slot : Nat} {connection : SlotConnection}
    (tidy : Tidy shard.slots)
    (occupied : shard.slots.table.connections[slot]? = some (some connection))
    (closes : Table.step shard.slots (.close slot) = some slots) (item : Nat) :
    (shard.withSlots slots).connectionsWith item +
        (if shard.fds connection.serial = item then 1 else 0) = shard.connectionsWith item := by
  have closed := Table.openCount_of_close tidy.idle occupied closes
    (fun connection => shard.fds connection.serial = item)
  simp only [decide_eq_true_eq] at closed
  exact closed

structure Stores (shard : AcceptShard) (fd : Nat) (stored : AcceptShard) (slot : ConnectionSlot) :
    Prop where
  tidy : Tidy stored.slots
  occupied : ∃ connection, stored.slots.table.connections[slot.index]? = some (some connection) ∧
    stored.fds connection.serial = fd
  counted : ∀ item, stored.connectionsWith item =
    shard.connectionsWith item + if fd = item then 1 else 0
  same : ∃ slots fds, stored = shard.withConnections slots fds

theorem stores_storeConnection {stored : AcceptShard} {slot : ConnectionSlot}
    (tidy : Tidy shard.slots) (storing : storeConnection shard fd = some (stored, slot)) :
    Stores shard fd stored slot := by
  obtain ⟨acquiring, acquires, storing⟩ := Option.bind_eq_some_iff.mp storing
  obtain ⟨own, acquired, storing⟩ := Option.bind_eq_some_iff.mp storing
  obtain ⟨slots, creates, same⟩ := Option.map_eq_some_iff.mp storing
  obtain ⟨rfl, rfl⟩ := Prod.mk.inj same.symm
  have older : ∀ (index : Nat) (connection : SlotConnection),
      shard.slots.table.connections[index]? = some (some connection) →
        connection.serial ≠ shard.slots.nextSerial := fun index connection occupied =>
    Nat.ne_of_lt (Table.serial_lt tidy.inv tidy.numbered occupied)
  have stores := Table.storesOne_of_steps tidy acquires acquired creates
  refine ⟨stores.tidy, ⟨_, stores.occupied, update_self _ _ _⟩, fun item => ?_, ⟨_, _, rfl⟩⟩
  have counted := stores.counted fun connection =>
    update shard.fds shard.slots.nextSerial fd connection.serial = item
  simp only [update_self, decide_eq_true_eq] at counted
  refine counted.trans (congrArg (· + _) ?_)
  refine ConnectionTable.openCount_congr_test fun index connection occupied => ?_
  rw [update_of_ne (older index connection occupied)]

end Accept

end AsyncFlow
