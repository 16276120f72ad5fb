import Mathlib.Data.List.Perm.Subperm
import Mathlib.Data.List.Nodup
import Mathlib.Data.List.Pairwise
import Mathlib.Data.Set.Insert
import Mathlib.Logic.Function.Basic

/-!
# Exclusive holding

A family of lists, indexed by the places that can hold items, is exclusive when no
item occurs twice.  Moving items between two places, dropping items and taking a
fresh item keep exclusivity.  The second part describes a family of stacks of
which one has its top replaced.
-/

namespace AsyncFlow

open Function List

variable {ι α β : Type*}

/-- No item occurs twice in one place or in two different places. -/
structure Exclusive (held : ι → List α) : Prop where
  nodup : ∀ place, (held place).Nodup
  separate : ∀ first second, first ≠ second → List.Disjoint (held first) (held second)

namespace Exclusive

variable {held held' : ι → List α} {first second place : ι} {item : α}

theorem eq_of_mem (exclusive : Exclusive held) (inFirst : item ∈ held first)
    (inSecond : item ∈ held second) : first = second := by
  by_contra different
  exact exclusive.separate first second different inFirst inSecond

theorem rearrange (exclusive : Exclusive held) (different : first ≠ second)
    (others : ∀ place, place ≠ first → place ≠ second → held' place = held place)
    (items : List.Subperm (held' first ++ held' second) (held first ++ held second)) :
    Exclusive held' := by
  classical
  have joined : (held' first ++ held' second).Nodup := by
    obtain ⟨middle, perm, sub⟩ := items
    exact perm.nodup_iff.mp (sub.nodup (nodup_append'.mpr
      ⟨exclusive.nodup first, exclusive.nodup second, exclusive.separate first second different⟩))
  obtain ⟨firstNodup, secondNodup, apart⟩ := nodup_append'.mp joined
  -- Whatever the two places hold now, one of them held before.
  have origin : ∀ item, item ∈ held' first ∨ item ∈ held' second →
      item ∈ held first ∨ item ∈ held second := fun item inside =>
    mem_append.mp (items.subset (mem_append.mpr inside))
  have away : ∀ place, place ≠ first → place ≠ second → ∀ item,
      item ∈ held' first ∨ item ∈ held' second → item ∉ held' place := by
    intro place notFirst notSecond item inside inPlace
    rw [others place notFirst notSecond] at inPlace
    rcases origin item inside with inFirst | inSecond
    · exact notFirst (exclusive.eq_of_mem inPlace inFirst)
    · exact notSecond (exclusive.eq_of_mem inPlace inSecond)
  refine ⟨fun place => ?_, fun one other distinct item inOne inOther => ?_⟩
  · by_cases isFirst : place = first
    · exact isFirst ▸ firstNodup
    by_cases isSecond : place = second
    · exact isSecond ▸ secondNodup
    · rw [others place isFirst isSecond]
      exact exclusive.nodup place
  · by_cases oneInside : one = first ∨ one = second
    · have inside : item ∈ held' first ∨ item ∈ held' second := by
        rcases oneInside with rfl | rfl
        · exact .inl inOne
        · exact .inr inOne
      by_cases otherFirst : other = first
      · subst otherFirst
        rcases oneInside with rfl | rfl
        · exact distinct rfl
        · exact apart inOther inOne
      by_cases otherSecond : other = second
      · subst otherSecond
        rcases oneInside with rfl | rfl
        · exact apart inOne inOther
        · exact distinct rfl
      · exact away other otherFirst otherSecond item inside inOther
    · rw [not_or] at oneInside
      rw [others one oneInside.1 oneInside.2] at inOne
      by_cases otherInside : other = first ∨ other = second
      · have inside : item ∈ held' first ∨ item ∈ held' second := by
          rcases otherInside with rfl | rfl
          · exact .inl inOther
          · exact .inr inOther
        exact away one oneInside.1 oneInside.2 item inside
          ((others one oneInside.1 oneInside.2).symm ▸ inOne)
      · rw [not_or] at otherInside
        rw [others other otherInside.1 otherInside.2] at inOther
        exact exclusive.separate one other distinct inOne inOther

/-- One place replaces what it has in front of a common rest by items that
nobody else holds. -/
theorem replace (exclusive : Exclusive held) (place : ι) {items rest : List α}
    (others : ∀ other, other ≠ place → held' other = held other)
    (replaced : held' place = items ++ rest) (kept : List.Sublist rest (held place))
    (itemsNodup : items.Nodup)
    (fresh : ∀ item ∈ items, item ∉ rest ∧ ∀ other, other ≠ place → item ∉ held other) :
    Exclusive held' := by
  have outside : ∀ other, other ≠ place → ∀ item, item ∈ held' place → item ∉ held' other := by
    intro other different item inPlace inOther
    rw [others other different] at inOther
    rw [replaced, mem_append] at inPlace
    rcases inPlace with isNew | inRest
    · exact (fresh item isNew).2 other different inOther
    · exact different (exclusive.eq_of_mem inOther (kept.subset inRest))
  refine ⟨fun other => ?_, fun one other distinct item inOne inOther => ?_⟩
  · by_cases same : other = place
    · subst same
      rw [replaced]
      exact nodup_append'.mpr ⟨itemsNodup, kept.nodup (exclusive.nodup other),
        fun item isNew inRest => (fresh item isNew).1 inRest⟩
    · rw [others other same]
      exact exclusive.nodup other
  · by_cases isOne : one = place
    · subst isOne
      exact outside other (Ne.symm distinct) item inOne inOther
    by_cases isOther : other = place
    · subst isOther
      exact outside one distinct item inOther inOne
    · rw [others one isOne] at inOne
      rw [others other isOther] at inOther
      exact exclusive.separate one other distinct inOne inOther

end Exclusive

theorem eq_of_nodup_filterMap {image : β → Option α} {entries : List β}
    (nodup : (entries.filterMap image).Nodup) {one other : β} {item : α}
    (isOne : one ∈ entries) (isOther : other ∈ entries)
    (oneImage : image one = some item) (otherImage : image other = some item) : one = other := by
  have apart : entries.Pairwise fun one other =>
      ¬ (image one = some item ∧ image other = some item) :=
    (pairwise_filterMap.mp nodup).imp fun apart both => apart item both.1 item both.2 rfl
  have : Std.Symm fun one other => ¬ (image one = some item ∧ image other = some item) :=
    ⟨fun _ _ apart both => apart both.symm⟩
  by_contra different
  exact apart.forall isOne isOther different ⟨oneImage, otherImage⟩

/-- The stack at `place` has the entries `old` in front of `rest` replaced by
`new`; every other stack stays. -/
structure ReplacesTop (before after : ι → List β) (place : ι) (old new rest : List β) : Prop where
  before_eq : before place = old ++ rest
  after_eq : after place = new ++ rest
  others : ∀ other, other ≠ place → after other = before other

namespace ReplacesTop

variable {before after : ι → List β} {place : ι} {old new rest : List β} {entry : β}

theorem top [DecidableEq ι] (isTop : before place = entry :: rest) (new : List β) :
    ReplacesTop before (update before place (new ++ rest)) place [entry] new rest where
  before_eq := isTop
  after_eq := update_self ..
  others := fun _ different => update_of_ne different ..

theorem push [DecidableEq ι] (before : ι → List β) (place : ι) (entry : β) :
    ReplacesTop before (update before place (entry :: before place)) place
      [] [entry] (before place) where
  before_eq := rfl
  after_eq := update_self ..
  others := fun _ different => update_of_ne different ..

def Untouched (before : ι → List β) (place : ι) (rest : List β) : Set β :=
  { entry | entry ∈ rest ∨ ∃ other, other ≠ place ∧ entry ∈ before other }

section

variable (replaces : ReplacesTop before after place old new rest)

include replaces

theorem mem_after : (∃ other, entry ∈ after other) ↔
      entry ∈ new ∨ entry ∈ Untouched before place rest := by
  classical
  constructor
  · rintro ⟨other, inside⟩
    by_cases same : other = place
    · rw [same, replaces.after_eq, mem_append] at inside
      exact inside.imp_right .inl
    · rw [replaces.others other same] at inside
      exact .inr (.inr ⟨other, same, inside⟩)
  · rintro (inNew | inRest | ⟨other, different, inside⟩)
    · exact ⟨place, replaces.after_eq ▸ mem_append_left _ inNew⟩
    · exact ⟨place, replaces.after_eq ▸ mem_append_right _ inRest⟩
    · exact ⟨other, replaces.others other different ▸ inside⟩

theorem mem_before : (∃ other, entry ∈ before other) ↔
      entry ∈ old ∨ entry ∈ Untouched before place rest :=
  mem_after ⟨replaces.before_eq, replaces.before_eq, fun _ _ => rfl⟩

theorem mem_at {other : ι}
    (inside : entry ∈ after other) : entry ∈ before other ∨ other = place ∧ entry ∈ new := by
  classical
  by_cases same : other = place
  · rw [same, replaces.after_eq, mem_append] at inside
    rcases inside with isNew | inRest
    · exact .inr ⟨same, isNew⟩
    · rw [same, replaces.before_eq]
      exact .inl (mem_append_right _ inRest)
  · exact .inl (replaces.others other same ▸ inside)

theorem forall_after {property : β → Prop} (all : ∀ other, ∀ entry ∈ before other, property entry)
    (fresh : ∀ entry ∈ new, property entry) : ∀ other, ∀ entry ∈ after other, property entry := by
  intro other entry inside
  rcases replaces.mem_after.mp ⟨other, inside⟩ with isNew | isOld
  · exact fresh entry isNew
  · obtain ⟨origin, wasInside⟩ := replaces.mem_before.mpr (.inr isOld)
    exact all origin entry wasInside

end

end ReplacesTop

end AsyncFlow
