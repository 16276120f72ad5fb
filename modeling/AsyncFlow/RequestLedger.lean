import Mathlib.Data.List.Count
import Mathlib.Logic.Function.Basic

/-!
# A ledger of requests that are finished once

Requests get serial numbers.  A request is accepted or rejected, an accepted one
waits until it is completed or cancelled, and whoever finished it destroys it a
little later.  The ledger counts each of these events; it is balanced when nothing
happened twice or was left out.
-/

namespace AsyncFlow

open Function List

structure Ledger where
  created : Nat
  accepted : Nat → Bool
  completions : Nat → Nat
  cancels : Nat → Nat
  destroys : Nat → Nat

namespace Ledger

def empty : Ledger where
  created := 0
  accepted := fun _ => false
  completions := fun _ => 0
  cancels := fun _ => 0
  destroys := fun _ => 0

def accept (ledger : Ledger) : Ledger :=
  { ledger with
    created := ledger.created + 1
    accepted := update ledger.accepted ledger.created true }

/-- A request is created and destroyed without being accepted. -/
def reject (ledger : Ledger) : Ledger :=
  { ledger with
    created := ledger.created + 1
    destroys := update ledger.destroys ledger.created (ledger.destroys ledger.created + 1) }

def complete (ledger : Ledger) (id : Nat) : Ledger :=
  { ledger with
    completions := update ledger.completions id (ledger.completions id + 1) }

def cancel (ledger : Ledger) (id : Nat) : Ledger :=
  { ledger with cancels := update ledger.cancels id (ledger.cancels id + 1) }

def destroy (ledger : Ledger) (id : Nat) : Ledger :=
  { ledger with destroys := update ledger.destroys id (ledger.destroys id + 1) }

def finishes (ledger : Ledger) (id : Nat) : Nat :=
  ledger.completions id + ledger.cancels id

@[simp]
theorem accept_accepted (ledger : Ledger) :
    ledger.accept.accepted = update ledger.accepted ledger.created true := rfl

@[simp]
theorem finishes_accept (ledger : Ledger) (id : Nat) :
    ledger.accept.finishes id = ledger.finishes id := rfl

@[simp]
theorem destroy_destroys (ledger : Ledger) (id : Nat) :
    (ledger.destroy id).destroys = update ledger.destroys id (ledger.destroys id + 1) :=
  rfl

def owed (ledger : Ledger) (id : Nat) : Nat :=
  if ledger.accepted id then ledger.finishes id else if id < ledger.created then 1 else 0

/-- The requests in `waiting` wait, those in `pending` are finished but not
destroyed, and each other one was destroyed once. -/
structure Balanced (ledger : Ledger) (waiting : Nat → Prop) (pending : List Nat) : Prop where
  waiting_iff : ∀ id, waiting id ↔ ledger.accepted id = true ∧ ledger.finishes id = 0
  once : ∀ id, ledger.finishes id ≤ 1
  known : ∀ id, ledger.accepted id = true → id < ledger.created
  unaccepted : ∀ id, ledger.accepted id = false → ledger.finishes id = 0
  counted : ∀ id, ledger.destroys id + pending.count id = ledger.owed id

theorem balanced_empty : empty.Balanced (fun _ => False) [] where
  waiting_iff := by simp [empty]
  once := by simp [empty, finishes]
  known := by simp [empty]
  unaccepted := by simp [empty, finishes]
  counted := by simp [empty, owed]

namespace Balanced

variable {ledger : Ledger} {waiting waiting' : Nat → Prop} {pending : List Nat} {id : Nat}

section

variable (balanced : ledger.Balanced waiting pending)

include balanced

theorem congr (same : ∀ id, waiting' id ↔ waiting id) : ledger.Balanced waiting' pending :=
  { balanced with waiting_iff := fun id => (same id).trans (balanced.waiting_iff id) }

theorem perm {pending' : List Nat}
    (same : List.Perm pending pending') : ledger.Balanced waiting pending' :=
  { balanced with counted := fun id => same.count_eq id ▸ balanced.counted id }

theorem fresh : ledger.accepted ledger.created = false := by
  rw [← Bool.not_eq_true]
  intro accepted
  exact Nat.lt_irrefl _ (balanced.known _ accepted)

theorem not_waiting_created : ¬ waiting ledger.created := by
  rw [balanced.waiting_iff, balanced.fresh]
  simp

/-! ### One event -/

theorem accept (waits : ∀ id, waiting' id ↔ waiting id ∨ id = ledger.created) :
    ledger.accept.Balanced waiting' pending where
  waiting_iff := by
    intro id
    rw [waits, balanced.waiting_iff]
    by_cases same : id = ledger.created
    · simp [same, balanced.unaccepted _ balanced.fresh]
    · simp [same]
  once := balanced.once
  known := by
    intro id accepted
    by_cases same : id = ledger.created
    · exact same ▸ Nat.lt_succ_self _
    · rw [accept_accepted, update_of_ne same] at accepted
      exact Nat.lt_succ_of_lt (balanced.known id accepted)
  unaccepted := by
    intro id unaccepted
    by_cases same : id = ledger.created
    · simp [same] at unaccepted
    · rw [accept_accepted, update_of_ne same] at unaccepted
      exact balanced.unaccepted id unaccepted
  counted := by
    intro id
    refine (balanced.counted id).trans ?_
    by_cases same : id = ledger.created
    · simp [owed, same, balanced.fresh, balanced.unaccepted _ balanced.fresh]
    · rw [owed, owed, accept_accepted, update_of_ne same, finishes_accept]
      simp only [Ledger.accept]
      grind

theorem reject : ledger.reject.Balanced waiting pending :=
  { balanced with
    known := fun id accepted => Nat.lt_succ_of_lt (balanced.known id accepted)
    counted := by
      intro id
      have before := balanced.counted id
      by_cases same : id = ledger.created
      · subst same
        simp only [owed, balanced.fresh] at before
        simp only [owed, Ledger.reject, balanced.fresh, update_self]
        grind
      · simp only [owed, Ledger.reject, update_of_ne same] at before ⊢
        rw [before]
        simp only [finishes]
        grind }

theorem finish {after : Ledger}
    (waits : waiting id) (finished : after.finishes id = ledger.finishes id + 1)
    (others : ∀ other, other ≠ id → after.finishes other = ledger.finishes other)
    (created : after.created = ledger.created) (accepted : after.accepted = ledger.accepted)
    (destroys : after.destroys = ledger.destroys)
    (leaves : ∀ other, waiting' other ↔ waiting other ∧ other ≠ id) :
    after.Balanced waiting' (id :: pending) := by
  obtain ⟨isAccepted, unfinished⟩ := (balanced.waiting_iff id).mp waits
  refine ⟨fun other => ?_, fun other => ?_, ?_, fun other unaccepted => ?_, fun other => ?_⟩
  · rw [leaves, balanced.waiting_iff, accepted]
    by_cases same : other = id
    · simp [same, finished]
    · simp [same, others other same]
  · by_cases same : other = id
    · simp [same, finished, unfinished]
    · exact others other same ▸ balanced.once other
  · rw [accepted, created]
    exact balanced.known
  · rw [accepted] at unaccepted
    have different : other ≠ id := by
      rintro rfl
      simp [isAccepted] at unaccepted
    exact others other different ▸ balanced.unaccepted other unaccepted
  · have before := balanced.counted other
    rw [destroys, owed, accepted, created]
    by_cases same : other = id
    · subst same
      rw [owed, isAccepted] at before
      rw [count_cons_self, isAccepted, finished]
      simp only [if_true] at before ⊢
      omega
    · rw [count_cons_of_ne (Ne.symm same), others other same, before, owed]

theorem complete (waits : waiting id)
    (leaves : ∀ other, waiting' other ↔ waiting other ∧ other ≠ id) :
    (ledger.complete id).Balanced waiting' (id :: pending) := by
  refine balanced.finish waits ?_ (fun other different => ?_) rfl rfl rfl leaves
  · simp [finishes, Ledger.complete, Nat.add_right_comm]
  · simp [finishes, Ledger.complete, update_of_ne different]

theorem cancel (waits : waiting id)
    (leaves : ∀ other, waiting' other ↔ waiting other ∧ other ≠ id) :
    (ledger.cancel id).Balanced waiting' (id :: pending) := by
  refine balanced.finish waits ?_ (fun other different => ?_) rfl rfl rfl leaves
  · simp [finishes, Ledger.cancel, Nat.add_assoc]
  · simp [finishes, Ledger.cancel, update_of_ne different]

theorem destroy {rest : List Nat}
    (taken : List.Perm pending (id :: rest)) : (ledger.destroy id).Balanced waiting rest :=
  { balanced with
    counted := by
      intro other
      refine Eq.trans ?_ (balanced.counted other)
      rw [taken.count_eq]
      by_cases same : other = id
      · subst same
        rw [destroy_destroys, update_self, count_cons_self]
        omega
      · rw [count_cons_of_ne (Ne.symm same), destroy_destroys, update_of_ne same] }

/-! ### What the ledger says -/

theorem destroys_le_one (id : Nat) : ledger.destroys id ≤ 1 := by
  have counted := balanced.counted id
  have once := balanced.once id
  unfold owed at counted
  grind

theorem alive_of_waiting (waits : waiting id) : ledger.destroys id = 0 := by
  obtain ⟨accepted, unfinished⟩ := (balanced.waiting_iff id).mp waits
  have counted := balanced.counted id
  rw [owed, if_pos accepted, unfinished] at counted
  omega

theorem alive_of_mem_pending (inside : id ∈ pending) : ledger.destroys id = 0 := by
  have counted := balanced.counted id
  have once := balanced.once id
  unfold owed at counted
  grind

end

/-- With no request left to destroy, each accepted one was destroyed as often as
it was finished. -/
theorem destroys_eq (balanced : ledger.Balanced waiting []) (accepted : ledger.accepted id = true) :
    ledger.destroys id = ledger.finishes id := by
  have counted := balanced.counted id
  rwa [owed, if_pos accepted, count_nil, Nat.add_zero] at counted

end Balanced

end Ledger

end AsyncFlow
