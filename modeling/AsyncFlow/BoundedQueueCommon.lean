import AsyncFlow.RingCounters
import Mathlib.Data.Nat.Size
import Mathlib.Data.Nat.Bitwise

/-!
# Capacities of bounded queues

Both bounded queues round the requested capacity up to a power of two and refuse
what is too large for their position arithmetic.  `std::size_t` has 64 bits.
-/

namespace AsyncFlow

open BitVec

def maxPowerOfTwoSize : BitVec 64 :=
  1#64 <<< 63

def maxBoundedQueueCapacity : BitVec 64 :=
  1#64 <<< 62

/-- The sequence number is behind the position, across a wrap-around. -/
def boundedQueueSequenceBefore (sequence position : BitVec 64) : Bool :=
  maxPowerOfTwoSize ≤ sequence - position

/-- The loop of `next_power_of_two`: `value |= value >> shift` with the shift
doubled from 1 while it is below 64. -/
def spreadBits (value : BitVec 64) : BitVec 64 :=
  [1, 2, 4, 8, 16, 32].foldl (fun value shift => value ||| value >>> shift) value

def nextPowerOfTwo (value : BitVec 64) : BitVec 64 :=
  if value ≤ 1#64 then 1#64
  else if maxPowerOfTwoSize < value then 0#64
  else spreadBits (value - 1#64) + 1#64

def checkedNextPowerOfTwo (value : BitVec 64) (what : String) : Except String (BitVec 64) :=
  let capacity := nextPowerOfTwo value
  if capacity = 0#64 then .error what else .ok capacity

def normalizeBoundedQueueCapacity (requested : BitVec 64) : Except String (BitVec 64) := do
  let value := if requested < 2#64 then 2#64 else requested
  let capacity ← checkedNextPowerOfTwo value "bounded queue capacity is too large"
  if maxBoundedQueueCapacity < capacity then
    .error "bounded queue capacity is too large"
  else .ok capacity

/-- A capacity that the queues accept: a power of two from 2 to 2 ^ 62. -/
structure QueueCapacity where
  exponent : Nat
  positive : 1 ≤ exponent
  bounded : exponent ≤ 62

def QueueCapacity.size (capacity : QueueCapacity) : Nat :=
  2 ^ capacity.exponent

def QueueCapacity.word (capacity : QueueCapacity) : BitVec 64 :=
  BitVec.ofNat 64 capacity.size

/-! ### The loop spreads the highest bit downwards -/

/-- Each bit of the value is the disjunction of a window of bits. -/
def Spread (original value : BitVec 64) (window : Nat) : Prop :=
  ∀ index, value.getLsbD index = true ↔ ∃ offset < window, original.getLsbD (index + offset) = true

theorem Spread.double {original value : BitVec 64} {window : Nat}
    (spread : Spread original value window) :
    Spread original (value ||| value >>> window) (2 * window) := by
  intro index
  rw [getLsbD_or, getLsbD_ushiftRight, Bool.or_eq_true, spread, spread]
  constructor
  · rintro (⟨offset, inside, isSet⟩ | ⟨offset, inside, isSet⟩)
    · exact ⟨offset, by omega, isSet⟩
    · exact ⟨window + offset, by omega, by rwa [← Nat.add_assoc, Nat.add_comm index window]⟩
  · rintro ⟨offset, inside, isSet⟩
    by_cases low : offset < window
    · exact .inl ⟨offset, low, isSet⟩
    · refine .inr ⟨offset - window, by omega, ?_⟩
      rwa [show window + index + (offset - window) = index + offset by omega]

theorem spread_spreadBits (value : BitVec 64) : Spread value (spreadBits value) 64 := by
  have start : Spread value value 1 := fun index =>
    ⟨fun isSet => ⟨0, by omega, isSet⟩, fun ⟨offset, inside, isSet⟩ => by
      rwa [show offset = 0 by omega] at isSet⟩
  exact start.double.double.double.double.double.double

theorem toNat_spreadBits (value : BitVec 64) :
    (spreadBits value).toNat = 2 ^ value.toNat.size - 1 := by
  apply Nat.eq_of_testBit_eq
  intro index
  rw [Nat.testBit_two_pow_sub_one, Bool.eq_iff_iff, decide_eq_true_eq, testBit_toNat,
    spread_spreadBits]
  constructor
  · rintro ⟨offset, _, isSet⟩
    have large := Nat.ge_two_pow_of_testBit isSet
    have small := Nat.lt_size.mpr large
    omega
  · intro below
    obtain ⟨highest, above, isSet⟩ := Nat.exists_ge_and_testBit_of_ge_two_pow (Nat.lt_size.mp below)
    have bounded : highest < 64 := lt_of_getLsbD isSet
    exact ⟨highest - index, by omega, by rwa [Nat.add_sub_cancel' above]⟩

theorem nextPowerOfTwo_eq {value : BitVec 64} (large : 1 < value.toNat)
    (small : value.toNat ≤ 2 ^ 63) :
    nextPowerOfTwo value = BitVec.ofNat 64 (2 ^ (value.toNat - 1).size) := by
  have pred : (value - 1#64).toNat = value.toNat - 1 := by
    rw [toNat_sub_of_le (by simp only [le_def, toNat_ofNat]; omega)]
    rfl
  have notTiny : ¬ value ≤ 1#64 := by
    simp only [le_def, toNat_ofNat]
    omega
  have notHuge : ¬ maxPowerOfTwoSize < value := by
    have : maxPowerOfTwoSize.toNat = 2 ^ 63 := rfl
    simp only [lt_def, this]
    omega
  rw [nextPowerOfTwo, if_neg notTiny, if_neg notHuge]
  apply eq_of_toNat_eq
  have positive := Nat.two_pow_pos (value.toNat - 1).size
  rw [toNat_add, toNat_spreadBits, pred, toNat_ofNat, toNat_ofNat,
    Nat.mod_eq_of_lt (show 1 < 2 ^ 64 by decide), Nat.sub_add_cancel positive]

theorem nextPowerOfTwo_huge {value : BitVec 64} (huge : 2 ^ 63 < value.toNat) :
    nextPowerOfTwo value = 0#64 := by
  have limit : maxPowerOfTwoSize.toNat = 2 ^ 63 := rfl
  rw [nextPowerOfTwo, if_neg (by simp only [le_def, toNat_ofNat]; omega),
    if_pos (by simp only [lt_def, limit]; omega)]

theorem toNat_ofNat_two_pow {exponent : Nat} (small : exponent ≤ 63) :
    (BitVec.ofNat 64 (2 ^ exponent)).toNat = 2 ^ exponent :=
  toNat_ofNat _ _ ▸ Nat.mod_eq_of_lt (Nat.pow_lt_pow_right (by omega) (by omega))

/-- The least power of two that is at least the request and two, unless that is too
large. -/
theorem normalizeBoundedQueueCapacity_eq (requested : BitVec 64) :
    normalizeBoundedQueueCapacity requested = if (max 2 requested.toNat - 1).size ≤ 62 then
        .ok (BitVec.ofNat 64 (2 ^ (max 2 requested.toNat - 1).size))
      else .error "bounded queue capacity is too large" := by
  have value : (if requested < 2#64 then 2#64 else requested).toNat = max 2 requested.toNat := by
    split <;> rename_i isSmall <;> simp only [lt_def, toNat_ofNat] at isSmall ⊢ <;>
      omega
  simp only [normalizeBoundedQueueCapacity, checkedNextPowerOfTwo]
  generalize (if requested < 2#64 then 2#64 else requested) = rounded at value
  rw [← value]
  rcases Nat.lt_or_ge (2 ^ 63) rounded.toNat with huge | small
  · have large : 62 < (rounded.toNat - 1).size := Nat.lt_size.mpr (by omega)
    rw [nextPowerOfTwo_huge huge, if_pos rfl, if_neg (by omega)]
    rfl
  · have bound : (rounded.toNat - 1).size ≤ 63 := Nat.size_le.mpr (by omega)
    rw [nextPowerOfTwo_eq (by omega) small]
    have size := toNat_ofNat_two_pow bound
    have notZero : BitVec.ofNat 64 (2 ^ (rounded.toNat - 1).size) ≠ 0#64 := by
      intro isZero
      rw [isZero] at size
      exact (Nat.two_pow_pos _).ne size
    have limit : maxBoundedQueueCapacity.toNat = 2 ^ 62 := rfl
    rw [if_neg notZero]
    simp only [bind, Except.bind, lt_def, limit, size, ← Nat.not_le, ite_not]
    simp only [Nat.pow_le_pow_iff_right (show 1 < 2 by omega)]

theorem exists_capacity {requested word : BitVec 64}
    (accepted : normalizeBoundedQueueCapacity requested = .ok word) :
    ∃ capacity : QueueCapacity, capacity.word = word ∧
      capacity.exponent = (max 2 requested.toNat - 1).size := by
  have positive : 1 ≤ (max 2 requested.toNat - 1).size := Nat.lt_size.mpr (by omega)
  rw [normalizeBoundedQueueCapacity_eq] at accepted
  split at accepted
  · rename_i fits
    cases accepted
    exact ⟨⟨_, positive, fits⟩, rfl, rfl⟩
  · cases accepted

example : normalizeBoundedQueueCapacity 5#64 = .ok 8#64 := by decide

namespace QueueCapacity

variable (capacity : QueueCapacity)

theorem size_pos : 0 < capacity.size :=
  Nat.two_pow_pos _

theorem size_le : capacity.size ≤ 2 ^ 62 :=
  Nat.pow_le_pow_right (by omega) capacity.bounded

@[simp]
theorem toNat_word : capacity.word.toNat = capacity.size := by
  have small := capacity.size_le
  rw [word, toNat_ofNat, Nat.mod_eq_of_lt (by omega)]

theorem two_le_size : 2 ≤ capacity.size :=
  Nat.pow_le_pow_right (show 2 > 0 by omega) capacity.positive

theorem slot (position : Nat) :
    (BitVec.ofNat 64 position &&& (capacity.word - 1#64)).toNat = position % capacity.size :=
  Ring.toNat_ofNat_and_mask (by have := capacity.bounded; omega) position

end QueueCapacity

/-- Sequence numbers and positions that lie close together are compared as
numbers. -/
theorem boundedQueueSequenceBefore_iff {sequence position : Nat}
    (above : sequence < position + 2 ^ 63) (below : position ≤ sequence + 2 ^ 63) :
    boundedQueueSequenceBefore (BitVec.ofNat 64 sequence) (BitVec.ofNat 64 position) = true ↔
      sequence < position := by
  have limit : maxPowerOfTwoSize.toNat = 2 ^ 63 := rfl
  rw [boundedQueueSequenceBefore, decide_eq_true_eq, BitVec.le_def, limit]
  rcases Nat.lt_or_ge sequence position with before | notBefore
  · have distance := @Ring.toNat_ofNat_sub 64 position sequence before.le (by omega)
    have negated : (BitVec.ofNat 64 sequence - BitVec.ofNat 64 position).toNat =
        2 ^ 64 - (position - sequence) := by
      have same : BitVec.ofNat 64 sequence - BitVec.ofNat 64 position =
          -(BitVec.ofNat 64 position - BitVec.ofNat 64 sequence) := by
        rw [BitVec.neg_sub, BitVec.sub_eq_add_neg, BitVec.add_comm]
      rw [same, BitVec.toNat_neg, distance, Nat.mod_eq_of_lt (by omega)]
    omega
  · rw [Ring.toNat_ofNat_sub notBefore (by omega)]
    omega

/-- The least power of two that is not below the bound. -/
def IsNextPowerOfTwo (bound power : Nat) : Prop :=
  IsLeast {power | bound ≤ power ∧ ∃ exponent, power = 2 ^ exponent} power

theorem isNextPowerOfTwo_size (bound : Nat) : IsNextPowerOfTwo bound (2 ^ (bound - 1).size) := by
  constructor
  · have above := Nat.lt_size_self (bound - 1)
    exact ⟨by omega, _, rfl⟩
  · rintro _ ⟨large, exponent, rfl⟩
    have positive := Nat.two_pow_pos exponent
    exact Nat.pow_le_pow_right (by omega) (Nat.size_le.mpr (by omega))

theorem isNextPowerOfTwo_nextPowerOfTwo {value : BitVec 64} (small : value.toNat ≤ 2 ^ 63) :
    IsNextPowerOfTwo value.toNat (nextPowerOfTwo value).toNat := by
  have least := isNextPowerOfTwo_size value.toNat
  rcases Nat.lt_or_ge 1 value.toNat with large | tiny
  · rw [nextPowerOfTwo_eq large small, toNat_ofNat_two_pow (Nat.size_le.mpr (by omega))]
    exact least
  · rw [nextPowerOfTwo, if_pos (by simpa only [le_def, toNat_ofNat] using tiny)]
    rwa [show value.toNat - 1 = 0 by omega] at least

/-- The capacity a queue gets, the order of its sequence numbers and the slot of a
position, over the whole range of 64-bit words. -/
theorem queue_arithmetic :
    (∀ requested : BitVec 64, ∃ power, IsNextPowerOfTwo (max 2 requested.toNat) power ∧
      normalizeBoundedQueueCapacity requested = if power ≤ 2 ^ 62 then .ok (BitVec.ofNat 64 power)
        else .error "bounded queue capacity is too large") ∧
    (∀ value : BitVec 64, if value.toNat ≤ 2 ^ 63 then
      IsNextPowerOfTwo value.toNat (nextPowerOfTwo value).toNat else nextPowerOfTwo value = 0#64) ∧
    (∀ sequence position : Nat, sequence < position + 2 ^ 63 → position < sequence + 2 ^ 63 →
      (boundedQueueSequenceBefore (BitVec.ofNat 64 sequence) (BitVec.ofNat 64 position) = true ↔
        sequence < position)) ∧
    ∀ (requested capacity : BitVec 64) (position : Nat),
      normalizeBoundedQueueCapacity requested = .ok capacity →
      (BitVec.ofNat 64 position &&& (capacity - 1#64)).toNat = position % capacity.toNat := by
  refine ⟨fun requested => ⟨_, isNextPowerOfTwo_size _, ?_⟩, fun value => ?_,
    fun sequence position above below => boundedQueueSequenceBefore_iff above below.le,
    fun requested word position accepted => ?_⟩
  · simp only [normalizeBoundedQueueCapacity_eq, Nat.pow_le_pow_iff_right (show 1 < 2 by omega)]
  · split
    · exact isNextPowerOfTwo_nextPowerOfTwo ‹_›
    · exact nextPowerOfTwo_huge (by omega)
  · obtain ⟨capacity, rfl, -⟩ := exists_capacity accepted
    rw [capacity.slot, capacity.toNat_word]

end AsyncFlow
