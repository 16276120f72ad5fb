import AsyncFlow.IoWaits
import Mathlib.Data.List.Nodup

/-!
# Entries of the table of IO waits

What adding, removing and finding registrations does to one entry, and what a
changed entry does to the set of the registrations in the table.
-/

namespace AsyncFlow

open Function Option

namespace IoWaitEntry

variable {entry : IoWaitEntry} {events : IoEvents} {id other : Nat} {fd : Int}
  {registrations : Nat → IoWaitRegistration}

theorem contains_iff : entry.contains id = true ↔ entry.read = some id ∨ entry.write = some id := by
  simp [contains]

@[simp]
theorem contains_new : new.contains id = false := rfl

theorem isEmpty_iff : entry.isEmpty = true ↔ entry.read = none ∧ entry.write = none := by
  simp [isEmpty]

theorem not_contains_of_isEmpty (empty : entry.isEmpty = true) : ¬ entry.contains id = true := by
  obtain ⟨noRead, noWrite⟩ := isEmpty_iff.mp empty
  simp [contains_iff, noRead, noWrite]

theorem conflicts_eq_false_iff : entry.conflicts events = false ↔
    (events.readable = true → entry.read = none) ∧
      (events.writable = true → entry.write = none) := by
  cases reads : events.readable <;> cases writes : events.writable <;> simp [conflicts, *]

theorem interest_eq_none_iff : entry.interest fd = none ↔ entry.isEmpty = true := by
  cases noRead : entry.read <;> cases noWrite : entry.write <;>
    simp [interest, isEmpty, noRead, noWrite]

/-! ### Adding and removing -/

theorem contains_remove :
    (entry.remove id).contains other = true ↔ entry.contains other = true ∧ other ≠ id := by
  simp only [contains_iff, remove]
  grind

theorem contains_add (free : entry.conflicts events = false)
    (supported : events.readable = true ∨ events.writable = true) :
    (entry.add events id).contains other = true ↔ entry.contains other = true ∨ other = id := by
  rw [conflicts_eq_false_iff] at free
  simp only [contains_iff, add]
  grind

theorem remove_add (free : entry.conflicts events = false)
    (fresh : ¬ entry.contains id = true) : (entry.add events id).remove id = entry := by
  rw [conflicts_eq_false_iff] at free
  rw [contains_iff] at fresh
  cases entry
  simp only [add, remove, mk.injEq] at *
  grind

theorem contains_of_find {result : ResultId} (found : entry.find registrations result = some id) :
    entry.contains id = true := by
  unfold find at found
  rw [contains_iff]
  split at found
  next present =>
    cases found
    exact .inl (eq_some_of_filter_eq_some present)
  · exact .inr (eq_some_of_filter_eq_some found)

theorem result_of_find {result : ResultId} (found : entry.find registrations result = some id) :
    (registrations id).result = result := by
  unfold find at found
  split at found
  next present =>
    cases found
    simpa using (filter_eq_some_iff.mp present).2
  · have := (filter_eq_some_iff.mp found).2
    simp only [decide_eq_true_eq] at this
    exact this.2

theorem find_isSome_of_contains (registrations : Nat → IoWaitRegistration)
    (contains : entry.contains id = true) :
    (entry.find registrations (registrations id).result).isSome = true := by
  unfold find
  split
  · rfl
  next absent =>
    rw [contains_iff] at contains
    have notRead : entry.read ≠ some id := by
      intro isRead
      simp [isRead] at absent
    have isWrite := contains.resolve_left notRead
    rw [isWrite, filter_some]
    simp [Ne.symm notRead]

/-- The registrations of an entry are for its descriptor, and each is in exactly
the slots that it asked for. -/
def Fits (registrations : Nat → IoWaitRegistration) (fd : Int) (entry : IoWaitEntry) : Prop :=
  ∀ id, entry.contains id = true → (registrations id).fd = fd ∧
    (entry.read = some id ↔ (registrations id).events.readable = true) ∧
    (entry.write = some id ↔ (registrations id).events.writable = true)

theorem Fits.remove (fits : entry.Fits registrations fd) (id : Nat) :
    (entry.remove id).Fits registrations fd := by
  intro other contains
  obtain ⟨before, different⟩ := contains_remove.mp contains
  obtain ⟨own, read, write⟩ := fits other before
  refine ⟨own, ?_, ?_⟩
  · rw [← read]
    simp only [IoWaitEntry.remove]
    grind
  · rw [← write]
    simp only [IoWaitEntry.remove]
    grind

theorem Fits.add (fits : entry.Fits registrations fd) (free : entry.conflicts events = false)
    (supported : events.readable = true ∨ events.writable = true)
    (fresh : ¬ entry.contains id = true) (own : (registrations id).fd = fd)
    (asks : (registrations id).events = events) : (entry.add events id).Fits registrations fd := by
  have noConflict := conflicts_eq_false_iff.mp free
  rw [contains_iff] at fresh
  intro other contains
  rcases (contains_add free supported).mp contains with before | rfl
  · obtain ⟨ownOther, read, write⟩ := fits other before
    refine ⟨ownOther, ?_, ?_⟩
    · rw [← read]
      simp only [IoWaitEntry.add, contains_iff] at *
      grind
    · rw [← write]
      simp only [IoWaitEntry.add, contains_iff] at *
      grind
  · refine ⟨own, ?_, ?_⟩
    all_goals
      rw [asks]
      simp only [IoWaitEntry.add]
      grind

theorem Fits.congr {registrations' : Nat → IoWaitRegistration} (fits : entry.Fits registrations fd)
    (same : ∀ id, entry.contains id = true → registrations' id = registrations id) :
    entry.Fits registrations' fd := by
  intro id contains
  rw [same id contains]
  exact fits id contains

end IoWaitEntry

namespace IoWaits

variable {ioWaits : Int → Option IoWaitEntry} {registrations : Nat → IoWaitRegistration}
  {entry : IoWaitEntry} {changed : Option IoWaitEntry} {fd : Int} {id : Nat}

def InTable (ioWaits : Int → Option IoWaitEntry) (id : Nat) : Prop :=
  ∃ fd, ∃ entry ∈ ioWaits fd, entry.contains id = true

theorem inTable_of_contains (present : ioWaits fd = some entry)
    (contains : entry.contains id = true) : InTable ioWaits id :=
  ⟨fd, entry, present, contains⟩

theorem not_inTable_new : ¬ InTable (fun _ => none) id := by
  rintro ⟨fd, entry, present, -⟩
  cases present

theorem inTable_update_iff : InTable (update ioWaits fd changed) id ↔
      (∃ entry ∈ changed, entry.contains id = true) ∨
        ∃ other, other ≠ fd ∧ ∃ entry ∈ ioWaits other, entry.contains id = true := by
  constructor
  · rintro ⟨other, entry, present, contains⟩
    by_cases same : other = fd
    · subst same
      rw [update_self] at present
      exact .inl ⟨entry, present, contains⟩
    · rw [update_of_ne same] at present
      exact .inr ⟨other, same, entry, present, contains⟩
  · rintro (⟨entry, present, contains⟩ | ⟨other, different, entry, present, contains⟩)
    · exact ⟨fd, entry, by rwa [update_self], contains⟩
    · exact ⟨other, entry, by rwa [update_of_ne different], contains⟩

theorem inTable_iff (fd : Int) :
    InTable ioWaits id ↔ (∃ entry ∈ ioWaits fd, entry.contains id = true) ∨
      ∃ other, other ≠ fd ∧ ∃ entry ∈ ioWaits other, entry.contains id = true := by
  rw [← inTable_update_iff, update_eq_self]

theorem inTable_add {added : Nat} (adds : ∀ id, (∃ entry ∈ changed, entry.contains id = true) ↔
      (∃ entry ∈ ioWaits fd, entry.contains id = true) ∨ id = added) :
    InTable (update ioWaits fd changed) id ↔ InTable ioWaits id ∨ id = added := by
  rw [inTable_update_iff, adds, inTable_iff fd]
  exact or_right_comm

theorem inTable_remove {removed : Nat} (present : ioWaits fd = some entry)
    (own : (registrations removed).fd = fd)
    (fits : ∀ fd entry, ioWaits fd = some entry → entry.Fits registrations fd)
    (removes : ∀ id, (∃ entry ∈ changed, entry.contains id = true) ↔
      entry.contains id = true ∧ id ≠ removed) :
    InTable (update ioWaits fd changed) id ↔ InTable ioWaits id ∧ id ≠ removed := by
  have away : ∀ other, other ≠ fd → ∀ entry ∈ ioWaits other, entry.contains id = true →
      id ≠ removed := by
    rintro other different entry inside contains rfl
    exact different ((fits other entry inside id contains).1 ▸ own)
  rw [inTable_update_iff, removes, inTable_iff fd, present]
  constructor
  · rintro (⟨contains, different⟩ | ⟨other, apart, entry, inside, contains⟩)
    · exact ⟨.inl ⟨entry, rfl, contains⟩, different⟩
    · exact ⟨.inr ⟨other, apart, entry, inside, contains⟩, away other apart entry inside contains⟩
  · rintro ⟨⟨own, isEntry, contains⟩ | elsewhere, different⟩
    · rw [mem_some_iff] at isEntry
      exact .inl ⟨isEntry ▸ contains, different⟩
    · exact .inr elsewhere

/-! ### Ready registrations -/

variable {state : IoWaitsState} {readyEvents : IoEvents}

theorem contains_of_mem_collectReady (inside : id ∈ state.collectReady readyEvents entry) :
    entry.contains id = true := by
  rw [IoWaitEntry.contains_iff]
  simp only [IoWaitsState.collectReady, List.mem_append, mem_toList] at inside
  rcases inside with isRead | isWrite
  · exact .inl (eq_some_of_filter_eq_some isRead)
  · exact .inr (eq_some_of_filter_eq_some isWrite)

theorem nodup_collectReady : (state.collectReady readyEvents entry).Nodup := by
  have single : ∀ slot : Option Nat, slot.toList.Nodup := by
    intro slot
    cases slot <;> simp
  refine List.nodup_append'.mpr ⟨single _, single _, ?_⟩
  intro id isRead isWrite
  rw [mem_toList] at isWrite
  have := (filter_eq_some_iff.mp isWrite).2
  simp only [decide_eq_true_eq] at this
  exact this.2 isRead

end IoWaits

end AsyncFlow
