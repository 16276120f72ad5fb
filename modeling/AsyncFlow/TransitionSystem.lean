import Mathlib.Logic.Relation
import Mathlib.Data.List.Basic

/-!
# Computed transition systems

A transition system is a set of initial states and a partial step function.
Interleavings of concurrent code become runs of such a system: an action names the
thread that moves next together with whatever the environment decides.  Runs are
restricted by a side condition `allowed` on the state before a step and the
action, which expresses the assumptions of a result.
-/

namespace AsyncFlow

/-- A set of initial states and a computed, partial transition function. -/
structure TransitionSystem (State Action : Type*) where
  initial : State → Prop
  step : State → Action → Option State

namespace TransitionSystem

variable {State Action : Type*}

/-- The states reached by runs all of whose steps are `allowed`. -/
inductive ReachableUnder (system : TransitionSystem State Action)
    (allowed : State → Action → Prop) : State → Prop
  | start {state : State} (starts : system.initial state) : ReachableUnder system allowed state
  | next {state successor : State} {action : Action} (reached : ReachableUnder system allowed state)
      (permitted : allowed state action) (steps : system.step state action = some successor) :
      ReachableUnder system allowed successor

def Reachable (system : TransitionSystem State Action) : State → Prop :=
  system.ReachableUnder fun _ _ => True

variable {system : TransitionSystem State Action}
  {allowed weaker : State → Action → Prop} {state : State}

section

variable (reached : system.ReachableUnder allowed state)

include reached

theorem ReachableUnder.mono (relaxes : ∀ state action, allowed state action → weaker state action) :
    system.ReachableUnder weaker state := by
  induction reached with
  | start starts => exact .start starts
  | next _ permitted steps ih =>
    exact .next ih (relaxes _ _ permitted) steps

theorem ReachableUnder.replaceAllowed
    (permits : ∀ state action, system.ReachableUnder allowed state →
      allowed state action → weaker state action) : system.ReachableUnder weaker state := by
  induction reached with
  | start starts => exact .start starts
  | next reached permitted steps ih =>
    exact .next ih (permits _ _ reached permitted) steps

theorem ReachableUnder.reachable : system.Reachable state :=
  reached.mono fun _ _ _ => trivial

end

/-- The invariant rule.  The step obligation may use that its source state is itself
reached. -/
theorem ReachableUnder.invariant {invariant : State → Prop}
    (starts : ∀ state, system.initial state → invariant state)
    (preserves : ∀ state action successor, system.ReachableUnder allowed state → invariant state →
        allowed state action → system.step state action = some successor → invariant successor)
    (reached : system.ReachableUnder allowed state) : invariant state := by
  induction reached with
  | start initial => exact starts _ initial
  | next reached permitted steps ih =>
    exact preserves _ _ _ reached ih permitted steps

/-- The simulation rule: when every step of one system leaves what another sees or is
a step of the other, the other reaches what it sees. -/
theorem ReachableUnder.simulates {Seen SeenAction : Type*} {seen : TransitionSystem Seen SeenAction}
    (sees : State → Seen) (starts : ∀ state, system.initial state → seen.initial (sees state))
    (follows : ∀ state action successor,
      system.ReachableUnder allowed state → allowed state action →
        system.step state action = some successor → sees successor = sees state ∨
            ∃ seenAction, seen.step (sees state) seenAction = some (sees successor))
    (reached : system.ReachableUnder allowed state) : seen.Reachable (sees state) := by
  induction reached with
  | start initial => exact .start (starts _ initial)
  | next reached permitted steps ih =>
    rcases follows _ _ _ reached permitted steps with same | ⟨_, seenSteps⟩
    · exact same ▸ ih
    · exact .next ih trivial seenSteps

def startingAt (system : TransitionSystem State Action) (state : State) :
    TransitionSystem State Action where
  initial := fun first => first = state
  step := system.step

/-- Replay a list of actions, failing at the first one that is not allowed or
not enabled. -/
def replay (system : TransitionSystem State Action) (allowed : State → Action → Prop)
    [∀ state action, Decidable (allowed state action)] : State → List Action → Option State
  | state, [] => some state
  | state, action :: actions =>
    if allowed state action then
      (system.step state action).bind fun successor =>
        replay system allowed successor actions
    else
      none

theorem ReachableUnder.replay [∀ state action, Decidable (allowed state action)] {final : State}
    {actions : List Action} (reached : system.ReachableUnder allowed state)
    (replays : system.replay allowed state actions = some final) :
    system.ReachableUnder allowed final := by
  induction actions generalizing state with
  | nil =>
    simp only [TransitionSystem.replay, Option.some.injEq] at replays
    exact replays ▸ reached
  | cons action actions ih =>
    rw [TransitionSystem.replay] at replays
    split at replays
    · rename_i permitted
      obtain ⟨successor, steps, rest⟩ := Option.bind_eq_some_iff.mp replays
      exact ih (.next reached permitted steps) rest
    · simp at replays

theorem exists_reachableUnder (system : TransitionSystem State Action)
    (allowed : State → Action → Prop) [∀ state action, Decidable (allowed state action)]
    (starts : system.initial state) (actions : List Action) (observed : State → Prop)
    [DecidablePred observed]
    (ends : (system.replay allowed state actions).any (fun final => observed final) = true) :
    ∃ final, system.ReachableUnder allowed final ∧ observed final := by
  cases replays : system.replay allowed state actions with
  | none => simp [replays] at ends
  | some final =>
    rw [replays, Option.any_some, decide_eq_true_eq] at ends
    exact ⟨final, (ReachableUnder.start starts).replay replays, ends⟩

end TransitionSystem

end AsyncFlow
