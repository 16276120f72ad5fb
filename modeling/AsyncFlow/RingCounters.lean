import Mathlib.Data.Nat.ModEq
import Mathlib.Data.List.Basic

/-!
# Rings addressed by free-running counters

A ring of a power of two of slots is addressed by positions that only grow.
Programs let them wrap around in machine words; a word then stands for the
position as long as all positions in use lie close together.  The slot of a
position is its remainder.
-/

namespace AsyncFlow

open BitVec

namespace Ring

variable {width : Nat}

theorem toNat_ofNat_sub {position earlier : Nat} (ordered : earlier ≤ position)
    (close : position - earlier < 2 ^ width) :
    (BitVec.ofNat width position - BitVec.ofNat width earlier).toNat = position - earlier := by
  have split : position = earlier + (position - earlier) := by omega
  rw [split, BitVec.ofNat_add, BitVec.add_comm, BitVec.add_sub_cancel, BitVec.toNat_ofNat,
    Nat.mod_eq_of_lt close]
  omega

theorem toNat_ofNat_and_mask {exponent : Nat} (fits : exponent < width) (position : Nat) :
    (BitVec.ofNat width position &&& (BitVec.ofNat width (2 ^ exponent) - BitVec.ofNat width 1)).toNat =
      position % 2 ^ exponent := by
  have smaller : 2 ^ exponent < 2 ^ width := Nat.pow_lt_pow_right (by omega) fits
  have mask : (BitVec.ofNat width (2 ^ exponent) - BitVec.ofNat width 1).toNat = 2 ^ exponent - 1 :=
    toNat_ofNat_sub Nat.one_le_two_pow (lt_of_le_of_lt (Nat.sub_le _ _) smaller)
  rw [toNat_and, mask, toNat_ofNat, Nat.and_two_pow_sub_one_eq_mod,
    Nat.mod_mod_of_dvd _ (Nat.pow_dvd_pow 2 fits.le)]

theorem mod_eq_mod_iff {size first second : Nat} (below : first < second + size)
    (above : second < first + size) : first % size = second % size ↔ first = second := by
  refine ⟨fun same => ?_, fun same => by rw [same]⟩
  have zero : ∀ {low high : Nat}, low ≤ high → high < low + size →
      high % size = low % size → high = low := by
    intro low high ordered close same
    have divides := (Nat.modEq_iff_dvd' ordered).mp same.symm
    have := Nat.eq_zero_of_dvd_of_lt divides (by omega)
    omega
  rcases Nat.le_total first second with ordered | ordered
  · exact (zero ordered above same.symm).symm
  · exact zero ordered below same

theorem ofNat_eq_ofNat_iff {first second : Nat} (below : first < second + 2 ^ width)
    (above : second < first + 2 ^ width) :
    BitVec.ofNat width first = BitVec.ofNat width second ↔ first = second := by
  rw [← toNat_inj, toNat_ofNat, toNat_ofNat]
  exact mod_eq_mod_iff below above

theorem exists_mod_eq {size : Nat} (positive : 0 < size) (first position : Nat) :
    ∃ present, first ≤ present ∧ present < first + size ∧ present % size = position % size := by
  refine ⟨first + (position + (size - first % size)) % size, by omega, ?_, ?_⟩
  · have := Nat.mod_lt (position + (size - first % size)) positive
    omega
  · have rounds : first + (position + (size - first % size)) =
        position + size * (first / size + 1) := by
      have split := Nat.mod_add_div first size
      have below := Nat.mod_lt first positive
      rw [Nat.mul_add]
      omega
    rw [Nat.add_mod_mod, rounds, Nat.add_mul_mod_self_left]

/-! ### Counters that skip zero -/

/-- The value after the given one, in a counter that wraps around to one. -/
def skipZero (modulus value : Nat) : Nat :=
  let next := (value + 1) % modulus
  if next = 0 then 1 else next

/-- The value of the counter after so many steps, at least one. -/
def skipZeroAt (modulus steps : Nat) : Nat :=
  (steps - 1) % (modulus - 1) + 1

theorem skipZero_skipZeroAt {modulus steps : Nat} (wide : 2 ≤ modulus) (started : 1 ≤ steps) :
    skipZero modulus (skipZeroAt modulus steps) = skipZeroAt modulus (steps + 1) := by
  obtain ⟨steps, rfl⟩ : ∃ before, steps = before + 1 := ⟨steps - 1, by omega⟩
  obtain ⟨size, rfl⟩ : ∃ size, modulus = size + 1 := ⟨modulus - 1, by omega⟩
  have inRound := Nat.mod_lt steps (show 0 < size by omega)
  have next : (steps + 1) % size = (steps % size + 1) % size := by simp
  simp only [skipZero, skipZeroAt, Nat.add_sub_cancel]
  rw [next]
  by_cases last : steps % size + 1 = size
  · rw [last, Nat.mod_self, Nat.mod_self, if_pos rfl]
  · rw [Nat.mod_eq_of_lt (show steps % size + 1 + 1 < size + 1 by omega), if_neg (by omega),
      Nat.mod_eq_of_lt (show steps % size + 1 < size by omega)]

theorem eq_of_skipZeroAt_eq {modulus first second : Nat} (startedFirst : 1 ≤ first)
    (startedSecond : 1 ≤ second) (below : first < second + (modulus - 1))
    (above : second < first + (modulus - 1))
    (same : skipZeroAt modulus first = skipZeroAt modulus second) : first = second := by
  have := (mod_eq_mod_iff (show first - 1 < second - 1 + (modulus - 1) by omega)
    (show second - 1 < first - 1 + (modulus - 1) by omega)).mp (Nat.add_right_cancel same)
  omega

/-! ### What the slots hold -/

variable {α : Type*} {slots : Nat → α} {size : Nat} {log : List α} {visible : Nat → Prop}

/-- The slots of the visible positions hold what the log has there. -/
def Holds (slots : Nat → α) (size : Nat) (log : List α) (visible : Nat → Prop) : Prop :=
  ∀ position, visible position → log[position]? = some (slots (position % size))

section

variable (holds : Holds slots size log visible)

include holds

theorem Holds.hide {fewer : Nat → Prop} (still : ∀ position, fewer position → visible position) :
    Holds slots size log fewer :=
  fun position isVisible => holds position (still position isVisible)

/-- A slot may be written while no visible position uses it. -/
theorem Holds.write {position : Nat} (value : α) (apart : ∀ other, visible other →
      other ≠ position ∧ other < position + size ∧ position < other + size) :
    Holds (Function.update slots (position % size) value) size log visible := by
  intro other isVisible
  obtain ⟨different, below, above⟩ := apart other isVisible
  rw [Function.update_of_ne]
  · exact holds other isVisible
  · rwa [Ne, mod_eq_mod_iff below above]

theorem Holds.append (values : List α) : Holds slots size (log ++ values) visible := by
  intro position isVisible
  have inside := holds position isVisible
  rw [List.getElem?_append_left (List.getElem?_eq_some_iff.mp inside).1]
  exact inside

theorem Holds.reveal {more : Nat → Prop} (new : ∀ position, more position →
      visible position ∨ log[position]? = some (slots (position % size))) :
    Holds slots size log more := by
  intro position isVisible
  rcases new position isVisible with before | written
  · exact holds position before
  · exact written

end

end Ring

end AsyncFlow
