import AsyncFlow.EventBatch
import Mathlib.Data.List.Count

/-!
# Counting open connections

How many open connections of a table satisfy a test.  Recycling of slots does
not change the number: it changes when a connection is stored or closed.
-/

namespace AsyncFlow

open List Option

theorem countP_set_add {α : Type*} {test : α → Bool} {items : List α} {index : Nat}
    {old : α} (item : α) (present : items[index]? = some old) :
    (items.set index item).countP test + (if test old then 1 else 0) =
      items.countP test + if test item then 1 else 0 := by
  obtain ⟨inside, rfl⟩ := List.getElem?_eq_some_iff.mp present
  have counted : (if test items[index] = true then 1 else 0) ≤ items.countP test :=
    List.boole_getElem_le_countP inside
  rw [List.countP_set inside]
  omega

namespace ConnectionTable

variable {table : ConnectionTable} {test : SlotConnection → Bool}

def openCount (table : ConnectionTable) (test : SlotConnection → Bool) : Nat :=
  table.connections.countP (·.any fun connection => connection.alive && test connection)

theorem openCount_congr {after : ConnectionTable} (same : after.connections = table.connections) :
    after.openCount test = table.openCount test := by
  rw [openCount, same, openCount]

theorem openCount_congr_test {other : SlotConnection → Bool}
    (same : ∀ (index : Nat) (connection : SlotConnection),
      table.connections[index]? = some (some connection) → test connection = other connection) :
    table.openCount test = table.openCount other := by
  refine countP_congr fun slot inside => ?_
  cases slot with
  | none => rfl
  | some connection =>
    obtain ⟨index, present⟩ := mem_iff_getElem?.mp inside
    simp [same index connection present]

theorem openCount_eq_zero (none : ∀ (index : Nat) (connection : SlotConnection),
      table.connections[index]? = some (some connection) → test connection = false) :
    table.openCount test = 0 := by
  rw [openCount_congr_test none]
  simp [openCount]

theorem openCount_set (test : SlotConnection → Bool) (item : Option SlotConnection)
    {old : Option SlotConnection} {index : Nat} (present : table.connections[index]? = some old) :
    { table with connections := table.connections.set index item }.openCount test +
        (if old.any (fun connection => connection.alive && test connection) then 1 else 0) =
      table.openCount test +
        if item.any (fun connection => connection.alive && test connection) then 1 else 0 :=
  countP_set_add item present

theorem openCount_acquire :
    table.acquireConnectionSlot.1.openCount test = table.openCount test := by
  unfold acquireConnectionSlot
  split
  · rfl
  · dsimp only
    split <;> simp [openCount, advanceGeneration, countP_append]

theorem openCount_trimLoop (rounds : Nat) :
    (trimLoop rounds table).openCount test = table.openCount test := by
  induction rounds generalizing table with
  | zero => rfl
  | succ rounds ih =>
    unfold trimLoop
    split
    next last =>
      obtain ⟨front, split⟩ := getLast?_eq_some_iff.mp last
      rw [ih]
      simp [openCount, eraseFreeConnectionSlot, split, countP_append]
    · rfl

theorem openCount_pushFree (slot : Nat) :
    (table.pushFree slot).openCount test = table.openCount test := by
  unfold pushFree
  split <;> rfl

theorem openCount_release (slot : ConnectionSlot) :
    (table.releaseUnusedConnectionSlot slot).openCount test = table.openCount test := by
  unfold releaseUnusedConnectionSlot
  split
  · exact (openCount_trimLoop _).trans (openCount_pushFree _)
  · rfl

theorem openCount_reapOne (retired : ConnectionSlot) :
    (table.reapOne retired).openCount test = table.openCount test := by
  unfold reapOne
  split
  · rfl
  · split
    next connection occupied =>
      split
      · rfl
      next dead =>
        simp only [Bool.or_eq_true, not_or, Bool.not_eq_true] at dead
        have cleared := openCount_set test none occupied
        rw [openCount_pushFree]
        simpa [dead.1] using cleared
    · rfl

theorem openCount_reap : table.reapRetiredConnections.openCount test = table.openCount test := by
  have folded : ∀ (entries : List ConnectionSlot) (table : ConnectionTable),
      (entries.foldl reapOne table).openCount test = table.openCount test := by
    intro entries
    induction entries with
    | nil => exact fun table => rfl
    | cons entry entries ih => exact fun table => (ih _).trans (openCount_reapOne entry)
  unfold reapRetiredConnections
  split
  · rfl
  · exact (openCount_trimLoop _).trans ((openCount_congr rfl).trans (folded _ _))

theorem openCount_store (test : SlotConnection → Bool) {slot : ConnectionSlot}
    (empty : table.connections[slot.index]? = some none) (serial : Nat) :
    (table.store slot serial).openCount test =
      table.openCount test + if test ⟨serial, slot.generation, true⟩ then 1 else 0 := by
  have stored := openCount_set test (some ⟨serial, slot.generation, true⟩) empty
  unfold store
  simpa using stored

theorem openCount_markClosed (test : SlotConnection → Bool) {index : Nat}
    {connection : SlotConnection} (occupied : table.connections[index]? = some (some connection))
    (alive : connection.alive = true) :
    (table.markClosed index).openCount test + (if test connection then 1 else 0) =
      table.openCount test := by
  have stored := openCount_set test (some { connection with alive := false }) occupied
  simp only [markClosed, modify_eq_set_getElem?, occupied]
  simpa [alive] using stored

end ConnectionTable

namespace Table

variable {slots slots' : TableState} {action : Action}

def Numbered (slots : TableState) : Prop :=
  ∀ creation ∈ slots.created, creation.serial < slots.nextSerial

theorem numbered_of_step (numbered : Numbered slots) (steps : step slots action = some slots') :
    Numbered slots' := by
  unfold step at steps
  unfold Numbered at numbered ⊢
  split at steps <;> cases action <;> grind [stepAcquired, stepIdle]

theorem serial_lt (inv : Inv slots) (numbered : Numbered slots) {index : Nat}
    {connection : SlotConnection}
    (occupied : slots.table.connections[index]? = some (some connection)) :
    connection.serial < slots.nextSerial :=
  numbered _ (inv.occupants index connection occupied).2

structure Tidy (slots : TableState) : Prop where
  inv : Inv slots
  idle : slots.acquired = none
  numbered : Numbered slots

theorem tidy_start : Tidy start :=
  ⟨inv_start, rfl, fun _ inside => by simp [start] at inside⟩

theorem Tidy.step (tidy : Tidy slots) (steps : Table.step slots action = some slots')
    (other : action ≠ .acquire) : Tidy slots' :=
  ⟨inv_of_step tidy.inv steps, acquired_of_step steps other, numbered_of_step tidy.numbered steps⟩

/-! ### Open connections under the calls of the table -/

theorem openCount_of_step (idle : slots.acquired = none) (steps : step slots action = some slots')
    (recycles : action = .reap ∨ ∃ slot, action = .retire slot) (test : SlotConnection → Bool) :
    slots'.table.openCount test = slots.table.openCount test := by
  rw [Table.step, idle] at steps
  rcases recycles with rfl | ⟨slot, rfl⟩
  · cases steps
    exact ConnectionTable.openCount_reap
  · obtain ⟨-, steps⟩ := ite_none_right_eq_some.mp steps
    cases steps
    rfl

variable {acquiring : TableState}

theorem tidy_of_createFails (tidy : Tidy slots) (acquires : step slots .acquire = some acquiring)
    (fails : step acquiring .createFails = some slots') :
    Tidy slots' ∧ ∀ test, slots'.table.openCount test = slots.table.openCount test := by
  refine ⟨⟨inv_of_step (inv_of_step tidy.inv acquires) fails, acquired_of_step fails (by simp),
    numbered_of_step (numbered_of_step tidy.numbered acquires) fails⟩, fun test => ?_⟩
  rw [Table.step, tidy.idle] at acquires
  cases acquires
  cases fails
  exact (ConnectionTable.openCount_release _).trans ConnectionTable.openCount_acquire

theorem nextSerial_of_recycle (idle : slots.acquired = none)
    (steps : step slots action = some slots')
    (recycles : action = .reap ∨ ∃ slot, action = .retire slot) :
    slots'.nextSerial = slots.nextSerial := by
  rw [Table.step, idle] at steps
  rcases recycles with rfl | ⟨slot, rfl⟩
  · cases steps
    rfl
  · obtain ⟨-, steps⟩ := ite_none_right_eq_some.mp steps
    cases steps
    rfl

theorem nextSerial_of_createFails (idle : slots.acquired = none)
    (acquires : step slots .acquire = some acquiring)
    (fails : step acquiring .createFails = some slots') : slots'.nextSerial = slots.nextSerial := by
  rw [Table.step, idle] at acquires
  cases acquires
  cases fails
  rfl

theorem openCount_of_close {index : Nat} {connection : SlotConnection}
    (idle : slots.acquired = none)
    (occupied : slots.table.connections[index]? = some (some connection))
    (closes : step slots (.close index) = some slots') (test : SlotConnection → Bool) :
    slots'.table.openCount test + (if test connection then 1 else 0) =
      slots.table.openCount test := by
  rw [Table.step, idle] at closes
  simp only [stepIdle, occupied] at closes
  obtain ⟨alive, closes⟩ := ite_none_right_eq_some.mp closes
  cases closes
  exact ConnectionTable.openCount_markClosed test occupied alive

structure StoresOne (slots : TableState) (slot : ConnectionSlot) (slots' : TableState) : Prop where
  tidy : Tidy slots'
  occupied : slots'.table.connections[slot.index]? =
    some (some ⟨slots.nextSerial, slot.generation, true⟩)
  counted : ∀ test, slots'.table.openCount test = slots.table.openCount test +
    if test ⟨slots.nextSerial, slot.generation, true⟩ then 1 else 0
  next : slots'.nextSerial = slots.nextSerial + 1

theorem storesOne_of_steps {slot : ConnectionSlot} (tidy : Tidy slots)
    (acquires : step slots .acquire = some acquiring) (acquired : acquiring.acquired = some slot)
    (creates : step acquiring .create = some slots') : StoresOne slots slot slots' := by
  have inv := inv_of_step tidy.inv acquires
  have empty := (inv.vacant _ acquired).1
  have tidyAfter : Tidy slots' := ⟨inv_of_step inv creates, acquired_of_step creates (by simp),
    numbered_of_step (numbered_of_step tidy.numbered acquires) creates⟩
  rw [Table.step, tidy.idle] at acquires
  cases acquires
  rw [Table.step, acquired] at creates
  cases creates
  refine ⟨tidyAfter, List.getElem?_set_self (List.getElem?_eq_some_iff.mp empty).1,
    fun test => ?_, rfl⟩
  exact (ConnectionTable.openCount_store test empty _).trans
    (congrArg (· + _) ConnectionTable.openCount_acquire)

end Table

end AsyncFlow
