import Mathlib.Algebra.BigOperators.Group.Finset.Piecewise

/-!
# Items in custody

Items are taken into custody, pass from holder to holder and are settled in the
end: an item that was taken is held once or was settled once, and may be reported
once when nobody holds it.  Holders are places of a finite set, each with a number
of holdings of every item.
-/

namespace AsyncFlow

open Function

variable {α ι : Type*}

/-- Items that were taken are held or settled. -/
structure Custody (taken : α → Bool) (settled reported held : α → Nat) : Prop where
  balance : ∀ item, settled item + held item = if taken item then 1 else 0
  reportedOnce : ∀ item, reported item ≤ 1
  released : ∀ item, reported item ≠ 0 → held item = 0

namespace Custody

variable {taken : α → Bool} {settled settled' reported held held' : α → Nat} {item : α}

section

variable (custody : Custody taken settled reported held)

include custody

theorem settled_le_one (item : α) : settled item ≤ 1 := by
  have balance := custody.balance item
  split at balance <;> omega

theorem unreported (isHeld : held item ≠ 0) : reported item = 0 := by
  by_contra isReported
  exact isHeld (custody.released item isReported)

theorem move (grows : ∀ item, settled item ≤ settled' item)
    (conserved : ∀ item, settled' item + held' item = settled item + held item) :
    Custody taken settled' reported held' where
  balance := fun item => (conserved item).trans (custody.balance item)
  reportedOnce := custody.reportedOnce
  released := fun item isReported => by
    have before := custody.released item isReported
    have grown := grows item
    have same := conserved item
    omega

end

variable [DecidableEq α]

theorem report (custody : Custody taken settled reported held) (unheld : held item = 0)
    (unreported : reported item = 0) :
    Custody taken settled (update reported item (reported item + 1)) held where
  balance := custody.balance
  reportedOnce := fun other => by
    by_cases same : other = item
    · rw [same, update_self, unreported]
    · rw [update_of_ne same]
      exact custody.reportedOnce other
  released := fun other isReported => by
    by_cases same : other = item
    · rw [same, unheld]
    · rw [update_of_ne same] at isReported
      exact custody.released other isReported

theorem take (custody : Custody taken settled reported held) (fresh : taken item = false)
    (unreported : reported item = 0)
    (takes : ∀ other, held' other = held other + if item = other then 1 else 0) :
    Custody (update taken item true) settled reported held' where
  balance := fun other => by
    have balance := custody.balance other
    rw [takes]
    by_cases same : item = other
    · subst same
      rw [fresh] at balance
      simp only [Bool.false_eq_true, if_false] at balance
      simp only [update_self, if_true]
      omega
    · rw [update_of_ne (Ne.symm same), if_neg same]
      exact balance
  reportedOnce := custody.reportedOnce
  released := fun other isReported => by
    rw [takes, custody.released other isReported, if_neg]
    rintro rfl
    exact isReported unreported

end Custody

theorem sum_update_add [DecidableEq ι] {places : Finset ι} {place : ι} (inside : place ∈ places)
    (held : ι → Nat) (value : Nat) : ∑ other ∈ places, update held place value other + held place =
      ∑ other ∈ places, held other + value := by
  rw [Finset.sum_update_of_mem inside, ← Finset.sum_sdiff (Finset.singleton_subset_iff.mpr inside),
    Finset.sum_singleton]
  omega

end AsyncFlow
