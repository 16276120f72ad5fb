import Mathlib.Data.List.Nodup
import Mathlib.Logic.Function.Basic

/-!
# Doubly linked lists whose nodes carry their links

Each node has a link to the node before it and to the node after it, and the list
is known by its first node.  A node is put in front, or taken out wherever it is,
without a walk along the list.
-/

namespace AsyncFlow

open Function List

/-- The first node, and the two links of every node. -/
structure LinkedNodes (α : Type*) where
  head : Option α
  prev : α → Option α
  next : α → Option α

namespace LinkedNodes

variable {α : Type*} [DecidableEq α]

/-- A write to a field of the node that a pointer points to, if there is one. -/
def setAt (field : α → Option α) (pointer value : Option α) : α → Option α :=
  match pointer with
  | some node => update field node value
  | none => field

def pushFront (links : LinkedNodes α) (node : α) : LinkedNodes α where
  head := some node
  prev := setAt (update links.prev node none) links.head (some node)
  next := update links.next node links.head

def unlink (links : LinkedNodes α) (node : α) : LinkedNodes α where
  head := if links.prev node = none then links.next node else links.head
  prev := update (setAt links.prev (links.next node) (links.prev node)) node none
  next := update (setAt links.next (links.prev node) (links.next node)) node none

/-- The links are those of a list of different nodes. -/
structure Shows (links : LinkedNodes α) (nodes : List α) : Prop where
  nodup : nodes.Nodup
  head : links.head = nodes.head?
  linked : ∀ before node after, nodes = before ++ node :: after →
    links.prev node = before.getLast? ∧ links.next node = after.head?

variable {links : LinkedNodes α} {nodes : List α} {node : α}

theorem setAt_apply (field : α → Option α) (pointer value : Option α) (node : α) :
    setAt field pointer value node = if pointer = some node then value else field node := by
  cases pointer with
  | none => rfl
  | some other => simp [setAt, update_apply, eq_comm]

theorem Shows.pushFront (shows_ : Shows links nodes) (fresh : node ∉ nodes) :
    Shows (links.pushFront node) (node :: nodes) := by
  obtain ⟨nodup, head, linked⟩ := shows_
  refine ⟨nodup_cons.mpr ⟨fresh, nodup⟩, rfl, ?_⟩
  intro before other after split
  simp only [LinkedNodes.pushFront, setAt_apply, update_apply, head]
  cases before with
  | nil =>
    obtain ⟨rfl, rfl⟩ := cons_eq_cons.mp split
    have notFirst : nodes.head? ≠ some node := fun first => fresh (mem_of_head? first)
    simp [notFirst]
  | cons first before =>
    obtain ⟨rfl, rfl⟩ := cons_eq_cons.mp split
    obtain ⟨prev, next⟩ := linked before other after rfl
    cases before <;> grind

theorem Shows.unlink {before after : List α} (shows_ : Shows links (before ++ node :: after)) :
    Shows (links.unlink node) (before ++ after) := by
  obtain ⟨nodup, head, linked⟩ := shows_
  obtain ⟨prev, next⟩ := linked before node after rfl
  have apart := nodup_middle.mp nodup
  refine ⟨(nodup_cons.mp apart).2, ?_, ?_⟩
  · simp only [LinkedNodes.unlink, prev, next, head]
    cases before <;> simp
  · intro left other right split
    have different : other ≠ node := by
      rintro rfl
      simp [split] at apart
    have once : other ∉ left ∧ other ∉ right := by
      have := nodup_middle.mp (split ▸ (nodup_cons.mp apart).2)
      simpa using (nodup_cons.mp this).1
    simp only [LinkedNodes.unlink, update_apply, setAt_apply, prev, next, if_neg different]
    rcases append_eq_append_iff.mp split with ⟨middle, rfl, rfl⟩ | ⟨middle, rfl, isRight⟩
    · obtain ⟨oldPrev, oldNext⟩ := linked (before ++ node :: middle) other right (by simp)
      have notLast : before.getLast? ≠ some other := fun last =>
        once.1 (mem_append_left _ (mem_of_getLast? last))
      cases middle <;> simp_all [getLast?_append, getLast?_cons]
      grind
    · cases middle with
      | nil =>
        subst isRight
        obtain ⟨oldPrev, oldNext⟩ := linked (left ++ [node]) other right (by simp)
        have notLast : left.getLast? ≠ some other := fun last => once.1 (mem_of_getLast? last)
        simp_all
      | cons first middle =>
        obtain ⟨rfl, rfl⟩ := cons_eq_cons.mp isRight
        obtain ⟨oldPrev, oldNext⟩ := linked left other (middle ++ node :: after) (by simp)
        have notFirst : after.head? ≠ some other := fun first =>
          once.2 (mem_append_right _ (mem_of_head? first))
        cases middle <;> simp_all [getLast?_append, getLast?_cons]
        grind

end LinkedNodes

end AsyncFlow
