import Mathlib.Logic.Relation
import Mathlib.Data.Fintype.Card
import Mathlib.Order.WellFounded

/-!
# Wait-for graphs

A group is deadlocked when each of its members waits for another member.  In a
graph without cycles no finite group is, and a graph stays without cycles when the
new edges all lead to one vertex from which none of their sources can be reached.
-/

namespace AsyncFlow

open Relation

variable {Vertex : Type*} {waits after : Vertex → Vertex → Prop}

/-- No vertex waits, directly or through others, for itself. -/
def Acyclic (waits : Vertex → Vertex → Prop) : Prop :=
  ∀ vertex, ¬ TransGen waits vertex vertex

/-- Every member of the group waits for a member. -/
def Deadlocked (waits : Vertex → Vertex → Prop) (group : Set Vertex) : Prop :=
  group.Nonempty ∧ ∀ waiter ∈ group, ∃ awaited ∈ group, waits waiter awaited

namespace Acyclic

theorem add_edges (acyclic : Acyclic waits) {new : Vertex → Vertex → Prop}
    (edges : ∀ waiter awaited, after waiter awaited → waits waiter awaited ∨ new waiter awaited)
    (oneTarget : ∀ waiter awaited other another,
      new waiter awaited → new other another → awaited = another)
    (unreached : ∀ waiter awaited, new waiter awaited → ¬ ReflTransGen waits awaited waiter) :
    Acyclic after := by
  -- A path in the new graph is old or passes a new edge once.
  have path : ∀ first last, TransGen after first last →
      TransGen waits first last ∨ ∃ source target, new source target ∧
        ReflTransGen waits first source ∧ ReflTransGen waits target last := by
    intro first last walk
    induction walk with
    | single edge =>
      rcases edges _ _ edge with old | isNew
      · exact .inl (.single old)
      · exact .inr ⟨_, _, isNew, .refl, .refl⟩
    | tail _ edge ih =>
      rcases edges _ _ edge with old | isNew
      · rcases ih with oldWalk | ⟨source, target, wasNew, before, behind⟩
        · exact .inl (oldWalk.tail old)
        · exact .inr ⟨source, target, wasNew, before, behind.tail old⟩
      · rcases ih with oldWalk | ⟨source, target, wasNew, _, behind⟩
        · exact .inr ⟨_, _, isNew, oldWalk.to_reflTransGen, .refl⟩
        · rw [oneTarget _ _ _ _ wasNew isNew] at behind
          exact absurd behind (unreached _ _ isNew)
  intro vertex cycle
  rcases path vertex vertex cycle with old | ⟨source, target, isNew, before, behind⟩
  · exact acyclic vertex old
  · exact unreached source target isNew (behind.trans before)

theorem not_deadlocked (acyclic : Acyclic waits) {group : Set Vertex} (finite : group.Finite) :
    ¬ Deadlocked waits group := by
  rintro ⟨⟨first, inGroup⟩, closed⟩
  have : Finite group := finite
  -- The transitive closure, backwards, has a minimal member of the group.
  let awaitedBy (left right : group) : Prop := TransGen waits right.val left.val
  have : IsTrans group awaitedBy := ⟨fun _ _ _ left right => right.trans left⟩
  have : Std.Irrefl awaitedBy := ⟨fun vertex cycle => acyclic vertex.val cycle⟩
  have wellFounded := Finite.wellFounded_of_trans_of_irrefl awaitedBy
  obtain ⟨last, _, minimal⟩ := wellFounded.has_min Set.univ ⟨⟨first, inGroup⟩, trivial⟩
  obtain ⟨awaited, isMember, edge⟩ := closed last.val last.property
  exact minimal ⟨awaited, isMember⟩ trivial (.single edge)

end Acyclic

end AsyncFlow
