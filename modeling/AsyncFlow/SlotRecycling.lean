import AsyncFlow.ConnectionTable
import Mathlib.Data.List.Nodup

/-!
# Recycling the slots of a connection table

What acquiring, filling, emptying, trimming and reaping do to the free list and
to the connections of a table.
-/

namespace AsyncFlow

open List

namespace ConnectionTable

variable {table : ConnectionTable} {acquired : Option Nat}

/-- The free list holds the empty slots that are not acquired.  While slots are
being emptied, the last one may be missing. -/
structure FreeSlots (table : ConnectionTable) (acquired : Option Nat) : Prop where
  nodup : table.free.Nodup
  sound : ∀ slot ∈ table.free, table.connections[slot]? = some none ∧ acquired ≠ some slot
  complete : ∀ slot, slot + 1 < table.connections.length →
    table.connections[slot]? = some none → acquired ≠ some slot → slot ∈ table.free

/-! ### Trimming -/

theorem mem_eraseFree (nodup : table.free.Nodup) (slot other : Nat) :
    other ∈ (table.eraseFreeConnectionSlot slot).free ↔ other ∈ table.free ∧ other ≠ slot := by
  rw [eraseFreeConnectionSlot, mem_reverse, (nodup_reverse.mpr nodup).mem_erase_iff, mem_reverse]
  exact and_comm

/-- Trimming leaves a beginning of the table and drops empty slots only. -/
structure Trimmed (before after : ConnectionTable) : Prop where
  generations : after.generations = before.generations
  retired : after.retired = before.retired
  shorter : after.connections.length ≤ before.connections.length
  kept : ∀ slot, slot < after.connections.length →
    after.connections[slot]? = before.connections[slot]?
  dropped : ∀ slot connection, before.connections[slot]? = some (some connection) →
    slot < after.connections.length

namespace Trimmed

theorem refl (table : ConnectionTable) : Trimmed table table :=
  ⟨rfl, rfl, Nat.le_refl _, fun _ _ => rfl,
    fun _ _ occupied => (List.getElem?_eq_some_iff.mp occupied).1⟩

theorem trans {before middle after : ConnectionTable} (first : Trimmed before middle)
    (second : Trimmed middle after) : Trimmed before after where
  generations := second.generations.trans first.generations
  retired := second.retired.trans first.retired
  shorter := Nat.le_trans second.shorter first.shorter
  kept := fun slot inside => (second.kept slot inside).trans
    (first.kept slot (Nat.lt_of_lt_of_le inside second.shorter))
  dropped := fun slot connection occupied =>
    second.dropped slot connection
      ((first.kept slot (first.dropped slot connection occupied)).trans occupied)

theorem occupied_iff {before after : ConnectionTable} (trimmed : Trimmed before after)
    (slot : Nat) (connection : SlotConnection) : after.connections[slot]? = some (some connection) ↔
      before.connections[slot]? = some (some connection) := by
  refine ⟨fun occupied => ?_, fun occupied => ?_⟩
  · rw [← trimmed.kept slot (List.getElem?_eq_some_iff.mp occupied).1]
    exact occupied
  · rw [trimmed.kept slot (trimmed.dropped slot connection occupied)]
    exact occupied

end Trimmed

theorem trimRound (free : FreeSlots table acquired)
    (empty : table.connections.getLast? = some none) :
    let erased := table.eraseFreeConnectionSlot (table.connections.length - 1)
    let after := { erased with connections := erased.connections.dropLast }
    FreeSlots after acquired ∧ Trimmed table after := by
  rw [getLast?_eq_getElem?] at empty
  have keeps : ∀ slot, slot < table.connections.length - 1 →
      table.connections.dropLast[slot]? = table.connections[slot]? := fun slot inside => by
    rw [getElem?_dropLast, if_pos inside]
  refine ⟨⟨?_, ?_, ?_⟩, ⟨rfl, rfl, ?_, ?_, ?_⟩⟩
  · exact nodup_reverse.mpr ((nodup_reverse.mpr free.nodup).erase _)
  · intro slot inside
    obtain ⟨inside, different⟩ := (mem_eraseFree free.nodup _ slot).mp inside
    obtain ⟨isEmpty, other⟩ := free.sound slot inside
    have below := (List.getElem?_eq_some_iff.mp isEmpty).1
    exact ⟨(keeps slot (by omega)).trans isEmpty, other⟩
  · intro slot below isEmpty other
    simp only [eraseFreeConnectionSlot, length_dropLast] at below
    refine (mem_eraseFree free.nodup _ slot).mpr ⟨?_, by omega⟩
    exact free.complete slot (by omega) ((keeps slot (by omega)).symm.trans isEmpty) other
  · simp [eraseFreeConnectionSlot]
  · intro slot below
    simp only [eraseFreeConnectionSlot, length_dropLast] at below
    exact keeps slot below
  · intro slot connection occupied
    have below := (List.getElem?_eq_some_iff.mp occupied).1
    simp only [eraseFreeConnectionSlot, length_dropLast]
    by_contra last
    rw [show slot = table.connections.length - 1 by omega, empty] at occupied
    simp at occupied

theorem trimLoop_spec (rounds : Nat) (free : FreeSlots table none)
    (enough : table.connections.length ≤ rounds) :
    FreeSlots (trimLoop rounds table) none ∧ Trimmed table (trimLoop rounds table) ∧
      (trimLoop rounds table).connections.getLast? ≠ some none := by
  induction rounds generalizing table with
  | zero =>
    have nothing : table.connections = [] := eq_nil_of_length_eq_zero (by omega)
    exact ⟨free, .refl table, by simp [trimLoop, nothing]⟩
  | succ rounds ih =>
    unfold trimLoop
    split
    · rename_i empty
      obtain ⟨freeAfter, trimmed⟩ := trimRound free empty
      have positive : table.connections ≠ [] := fun nothing => by simp [nothing] at empty
      obtain ⟨freeEnd, trimmedEnd, full⟩ := ih freeAfter (by
        have := length_pos_iff.mpr positive
        simp only [eraseFreeConnectionSlot, length_dropLast]
        omega)
      exact ⟨freeEnd, trimmed.trans trimmedEnd, full⟩
    · rename_i full
      exact ⟨free, .refl table, full⟩

theorem trimEmptyTailSlots_spec (free : FreeSlots table none) :
    FreeSlots table.trimEmptyTailSlots none ∧ Trimmed table table.trimEmptyTailSlots ∧
      table.trimEmptyTailSlots.connections.getLast? ≠ some none :=
  trimLoop_spec _ free (Nat.le_refl _)

/-! ### Filling and emptying slots -/

theorem pushFree_fields (table : ConnectionTable) (slot : Nat) :
    (table.pushFree slot).connections = table.connections ∧
      (table.pushFree slot).generations = table.generations ∧
        (table.pushFree slot).retired = table.retired := by
  unfold ConnectionTable.pushFree
  split <;> exact ⟨rfl, rfl, rfl⟩

namespace FreeSlots

variable {slot : Nat}

theorem congr {after : ConnectionTable} (free : FreeSlots table acquired)
    (length : after.connections.length = table.connections.length) (empty : ∀ slot : Nat,
      after.connections[slot]? = some none ↔ table.connections[slot]? = some none)
    (same : after.free = table.free) : FreeSlots after acquired where
  nodup := same ▸ free.nodup
  sound := fun slot inside => by
    rw [empty]
    exact free.sound slot (same ▸ inside)
  complete := fun slot below isEmpty other => by
    rw [same]
    exact free.complete slot (length ▸ below) ((empty slot).mp isEmpty) other

theorem pushFree (free : FreeSlots table (some slot))
    (empty : table.connections[slot]? = some none) : FreeSlots (table.pushFree slot) none := by
  unfold ConnectionTable.pushFree
  split
  · refine ⟨?_, ?_, ?_⟩
    · refine nodup_append'.mpr ⟨free.nodup, nodup_singleton slot, ?_⟩
      rw [disjoint_singleton]
      exact fun inside => (free.sound slot inside).2 rfl
    · intro other inside
      rcases mem_append.mp inside with inside | last
      · exact ⟨(free.sound other inside).1, by simp⟩
      · rw [mem_singleton.mp last]
        exact ⟨empty, by simp⟩
    · intro other below isEmpty _
      by_cases same : slot = other
      · exact mem_append.mpr (.inr (by simp [same]))
      · exact mem_append.mpr (.inl (free.complete other below isEmpty (by simpa using same)))
  · rename_i last
    refine ⟨free.nodup, fun other inside => ⟨(free.sound other inside).1, by simp⟩, ?_⟩
    intro other below isEmpty _
    exact free.complete other below isEmpty (by simp; omega)

theorem clear (free : FreeSlots table none) {connection : SlotConnection}
    (occupied : table.connections[slot]? = some (some connection)) :
    FreeSlots { table with connections := table.connections.set slot none } (some slot) := by
  refine ⟨free.nodup, fun other inside => ?_, fun other below isEmpty different => ?_⟩
  · have isEmpty := (free.sound other inside).1
    have different : slot ≠ other := fun same => by simp [← same, occupied] at isEmpty
    exact ⟨by rw [getElem?_set_ne different, isEmpty], by simpa using different⟩
  · rw [length_set] at below
    rw [getElem?_set_ne (by simpa using different)] at isEmpty
    exact free.complete other below isEmpty (by simp)

theorem store (free : FreeSlots table (some slot)) (connection : SlotConnection)
    (inside : slot < table.connections.length) :
    FreeSlots { table with connections := table.connections.set slot (some connection) } none := by
  refine ⟨free.nodup, fun other isFree => ?_, fun other below isEmpty _ => ?_⟩
  · obtain ⟨isEmpty, different⟩ := free.sound other isFree
    exact ⟨by rw [getElem?_set_ne (by simpa using different), isEmpty], by simp⟩
  · rw [length_set] at below
    have different : slot ≠ other := fun same => by
      rw [← same, getElem?_set_self inside] at isEmpty
      simp at isEmpty
    rw [getElem?_set_ne different] at isEmpty
    exact free.complete other below isEmpty (by simpa using different)

theorem popFree (free : FreeSlots table none) (last : table.free.getLast? = some slot) :
    FreeSlots { table with free := table.free.dropLast } (some slot) := by
  have split : table.free = table.free.dropLast ++ [slot] :=
    (dropLast_append_getLast? slot last).symm
  have nodup := free.nodup
  rw [split] at nodup
  obtain ⟨nodup, -, apart⟩ := nodup_append'.mp nodup
  refine ⟨nodup, fun other inside => ?_, fun other below isEmpty different => ?_⟩
  · refine ⟨(free.sound other (dropLast_subset _ inside)).1, ?_⟩
    rintro ⟨rfl⟩
    exact apart inside mem_cons_self
  · have inside := free.complete other below isEmpty (by simp)
    rw [split] at inside
    rcases mem_append.mp inside with inside | isLast
    · exact inside
    · exact absurd (congrArg some (mem_singleton.mp isLast).symm) different

theorem grow (free : FreeSlots table none) (none : table.free = [])
    (full : table.connections.getLast? ≠ some Option.none) :
    FreeSlots { table with connections := table.connections ++ [Option.none] }
      (some table.connections.length) := by
  refine ⟨free.nodup, fun other inside => by simp [none] at inside, ?_⟩
  intro other below isEmpty different
  rw [length_append, length_singleton] at below
  rw [getElem?_append_left (by omega)] at isEmpty
  by_cases last : other + 1 < table.connections.length
  · exact free.complete other last isEmpty (by simp)
  · rw [getLast?_eq_getElem?, show table.connections.length - 1 = other by omega] at full
    exact absurd isEmpty full

end FreeSlots

/-! ### Reaping -/

/-- Reaping entries empties slots of closed connections. -/
structure Reaped (before after : ConnectionTable) (entries : List ConnectionSlot) : Prop where
  generations : after.generations = before.generations
  length : after.connections.length = before.connections.length
  kept : ∀ slot, after.connections[slot]? = before.connections[slot]? ∨
    after.connections[slot]? = some none ∧ ∃ connection,
      before.connections[slot]? = some (some connection) ∧ connection.alive = false ∧
        ⟨slot, connection.generation⟩ ∈ entries
  emptied : ∀ slot connection, before.connections[slot]? = some (some connection) →
    connection.alive = false → before.generations[slot]? = some connection.generation →
      ⟨slot, connection.generation⟩ ∈ entries → after.connections[slot]? = some none

theorem reapOne_spec (free : FreeSlots table none) (entry : ConnectionSlot) :
    FreeSlots (table.reapOne entry) none ∧ Reaped table (table.reapOne entry) [entry] := by
  have unchanged : (∀ connection, table.connections[entry.index]? = some (some connection) →
      connection.alive = false → table.generations[entry.index]? = some connection.generation →
        connection.generation ≠ entry.generation) →
      FreeSlots table none ∧ Reaped table table [entry] := fun stays => by
    refine ⟨free, rfl, rfl, fun _ => .inl rfl, ?_⟩
    intro slot connection occupied dead current isEntry
    rw [mem_singleton] at isEntry
    subst isEntry
    exact absurd rfl (stays connection occupied dead current)
  unfold ConnectionTable.reapOne
  split
  · rename_i stale
    refine unchanged fun connection _ _ current same => stale ?_
    rw [current, same]
  split
  · rename_i connection occupied
    split
    · rename_i skips
      refine unchanged fun other isOther dead _ same => ?_
      cases occupied.symm.trans isOther
      simp [dead, same] at skips
    · rename_i reaps
      simp only [Bool.or_eq_true, decide_eq_true_eq, not_or, Bool.not_eq_true, not_not] at reaps
      have emptied : (table.connections.set entry.index none)[entry.index]? = some none :=
        getElem?_set_self (List.getElem?_eq_some_iff.mp occupied).1
      refine ⟨(free.clear occupied).pushFree emptied, ?_⟩
      obtain ⟨connections, generations, -⟩ := pushFree_fields
        { table with connections := table.connections.set entry.index none } entry.index
      refine ⟨generations, by rw [connections, length_set], fun slot => ?_, ?_⟩
      · rw [connections]
        by_cases isEntry : entry.index = slot
        · subst isEntry
          exact .inr ⟨emptied, connection, occupied, reaps.1, by simp [reaps.2]⟩
        · exact .inl (getElem?_set_ne isEntry)
      · intro slot other isOther dead _ isEntry
        rw [mem_singleton] at isEntry
        subst isEntry
        rw [connections]
        exact emptied
  · rename_i vacant
    exact unchanged fun connection occupied => absurd occupied (vacant connection)

theorem foldl_reapOne_spec (entries : List ConnectionSlot) (free : FreeSlots table none) :
    FreeSlots (entries.foldl reapOne table) none ∧
      Reaped table (entries.foldl reapOne table) entries := by
  induction entries generalizing table with
  | nil =>
    exact ⟨free, rfl, rfl, fun _ => .inl rfl, fun _ _ _ _ _ inside => by simp at inside⟩
  | cons entry entries ih =>
    obtain ⟨freeOne, one⟩ := reapOne_spec free entry
    obtain ⟨freeRest, rest⟩ := ih freeOne
    -- A slot that is empty stays empty.
    have stays : ∀ slot : Nat, (table.reapOne entry).connections[slot]? = some none →
        (entries.foldl reapOne (table.reapOne entry)).connections[slot]? = some none :=
      fun slot isEmpty => (rest.kept slot).elim (fun same => same.trans isEmpty) And.left
    refine ⟨freeRest, rest.generations.trans one.generations, rest.length.trans one.length,
      fun slot => ?_, fun slot connection occupied dead current inside => ?_⟩
    · rcases one.kept slot with same | ⟨isEmpty, connection, occupied, dead, isEntry⟩
      · rw [← same]
        refine (rest.kept slot).imp_right fun ⟨isEmpty, connection, occupied, dead, inside⟩ => ?_
        exact ⟨isEmpty, connection, occupied, dead, mem_cons_of_mem _ inside⟩
      · exact .inr ⟨stays slot isEmpty, connection, occupied, dead,
          mem_cons.mpr (.inl (mem_singleton.mp isEntry))⟩
    · rcases one.kept slot with same | ⟨isEmpty, -⟩
      · rcases mem_cons.mp inside with isEntry | inside
        · exact stays slot (one.emptied slot connection occupied dead current (by simp [isEntry]))
        · exact rest.emptied slot connection (same.trans occupied) dead
            (one.generations ▸ current) inside
      · exact stays slot isEmpty

structure ReapedAll (before after : ConnectionTable) : Prop where
  free : FreeSlots after none
  full : after.connections.getLast? ≠ some none
  generations : after.generations = before.generations
  retired : after.retired = []
  shorter : after.connections.length ≤ before.connections.length
  kept : ∀ slot connection, before.connections[slot]? = some (some connection) →
    after.connections[slot]? = some (some connection) ∨
      connection.alive = false ∧ ⟨slot, connection.generation⟩ ∈ before.retired
  old : ∀ (slot : Nat) (connection : SlotConnection),
    after.connections[slot]? = some (some connection) →
      before.connections[slot]? = some (some connection)
  emptied : ∀ slot connection, before.connections[slot]? = some (some connection) →
    connection.alive = false → before.generations[slot]? = some connection.generation →
      ⟨slot, connection.generation⟩ ∈ before.retired →
        after.connections[slot]? ≠ some (some connection)

theorem reapRetiredConnections_spec (free : FreeSlots table none)
    (full : table.connections.getLast? ≠ some none) :
    ReapedAll table table.reapRetiredConnections := by
  unfold reapRetiredConnections
  split
  · rename_i none
    exact ⟨free, full, rfl, none, Nat.le_refl _, fun _ _ => .inl, fun _ _ => id,
      fun _ _ _ _ _ inside => by simp [none] at inside⟩
  obtain ⟨freeReaped, reaped⟩ := foldl_reapOne_spec table.retired free
  have freeCleared : FreeSlots
      { table.retired.foldl reapOne table with retired := [] } none :=
    ⟨freeReaped.nodup, freeReaped.sound, freeReaped.complete⟩
  obtain ⟨freeEnd, trimmed, fullEnd⟩ := trimEmptyTailSlots_spec freeCleared
  have occupied := trimmed.occupied_iff
  refine ⟨freeEnd, fullEnd, trimmed.generations.trans reaped.generations, trimmed.retired,
    Nat.le_trans trimmed.shorter (Nat.le_of_eq reaped.length), ?_, ?_, ?_⟩
  · intro slot connection isThere
    rw [occupied]
    rcases reaped.kept slot with same | ⟨_, other, isOther, dead, inside⟩
    · exact .inl (same.trans isThere)
    · cases isThere.symm.trans isOther
      exact .inr ⟨dead, inside⟩
  · intro slot connection isThere
    rw [occupied] at isThere
    rcases reaped.kept slot with same | ⟨isEmpty, -⟩
    · exact same.symm.trans isThere
    · exact absurd (isEmpty.symm.trans isThere) (by simp)
  · intro slot connection isThere dead current inside remains
    rw [occupied] at remains
    have isEmpty := reaped.emptied slot connection isThere dead current inside
    exact absurd (isEmpty.symm.trans remains) (by simp)

end ConnectionTable

end AsyncFlow
