import AsyncFlow.TransitionSystem
import Mathlib.Data.Nat.Basic

/-!
# Starting batches in their order

`start_ordered_task` hands batches to a sequencer thread, where `OrderedStartState`
starts the batch with the next id, keeps those with later ids, and starts as many of the
kept ones as follow.
-/

namespace AsyncFlow

open List Option

/-- Batch ids are of type `std::uint64_t`. -/
def batchIds : Nat := 18446744073709551616

inductive SubmitPc
  | idle
  /-- the loop of `drain_ready`, for the submission of the given id -/
  | draining (id : Nat)
  deriving DecidableEq

/-- `OrderedStartState` of one thread within a runtime generation. -/
structure OrderedStartState (β : Type*) where
  nextBatchId : Nat
  pending : Nat → Option β
  pc : SubmitPc
  /-- History: the submitted batches, the started ones, and the ids whose submission
  returned false. -/
  submitted : List (Nat × β)
  started : List (Nat × β)
  failed : List Nat

namespace OrderedStarts

variable {β : Type*} {state after : OrderedStartState β}

/-- `starts` is what `start_task` returns, when it is called. -/
inductive Action (β : Type*)
  | submit (id : Nat) (batch : β) (starts : Bool)
  | drain (starts : Bool)

def startReady (state : OrderedStartState β) (batch : β) : OrderedStartState β :=
  { state with
    nextBatchId := (state.nextBatchId + 1) % batchIds
    started := state.started ++ [(state.nextBatchId, batch)] }

def fail (state : OrderedStartState β) (id : Nat) : OrderedStartState β :=
  { state with pc := .idle, failed := state.failed ++ [id] }

/-- `emplace` leaves a batch that is there. -/
def keep (state : OrderedStartState β) (id : Nat) (batch : β) : OrderedStartState β :=
  match state.pending id with
  | some _ => state
  | none => { state with pending := Function.update state.pending id (some batch) }

def submit (state : OrderedStartState β) (id : Nat) (batch : β) (starts : Bool) :
    OrderedStartState β :=
  let state := { state with submitted := state.submitted ++ [(id, batch)] }
  if id < state.nextBatchId then state
  else if state.nextBatchId < id then keep state id batch
  else if starts then { startReady state batch with pc := .draining id }
  else fail state id

def drainReady (state : OrderedStartState β) (id : Nat) (starts : Bool) : OrderedStartState β :=
  match state.pending state.nextBatchId with
  | none => { state with pc := .idle }
  | some batch =>
    let state := { state with pending := Function.update state.pending state.nextBatchId none }
    if starts then startReady state batch else fail state id

def step (state : OrderedStartState β) : Action β → Option (OrderedStartState β)
  | .submit id batch starts =>
    if state.pc = .idle ∧ id < batchIds then some (submit state id batch starts) else none
  | .drain starts =>
    match state.pc with
    | .idle => none
    | .draining id => some (drainReady state id starts)

def initial : OrderedStartState β := ⟨1, fun _ => none, .idle, [], [], []⟩

def system : TransitionSystem (OrderedStartState β) (Action β) where
  initial := fun state => state = initial
  step := step

/-- A kept batch is started when its turn comes, a batch whose start failed is submitted
again as it was, and the ids do not wrap around. -/
def keepsBatches (state : OrderedStartState β) : Action β → Prop
  | .submit id batch _ => id = state.nextBatchId →
    state.nextBatchId + 1 < batchIds ∧ ∀ first ∈ state.submitted.lookup id, first = batch
  | .drain starts => (state.pending state.nextBatchId).isSome = true →
    starts = true ∧ state.nextBatchId + 1 < batchIds

instance [DecidableEq β] (state : OrderedStartState β) :
    ∀ action, Decidable (keepsBatches state action)
  | .submit _ _ _ | .drain _ => inferInstanceAs (Decidable (_ → _ ∧ _))

structure Inv (state : OrderedStartState β) : Prop where
  positive : 1 ≤ state.nextBatchId
  started : state.started.map Prod.fst = List.range' 1 (state.nextBatchId - 1)
  firsts : ∀ id batch, (id, batch) ∈ state.started → state.submitted.lookup id = some batch
  pending : ∀ id batch, state.pending id = some batch → state.nextBatchId ≤ id ∧
    state.submitted.lookup id = some batch ∧ (state.pc = .idle → state.nextBatchId ≠ id)
  known : ∀ id, state.submitted.lookup id ≠ none → state.nextBatchId ≤ id →
    state.pending id ≠ none ∨ state.pc = .idle ∧ id = state.nextBatchId ∧ id ∈ state.failed

theorem inv_initial : Inv (initial : OrderedStartState β) := by
  constructor <;> simp [initial]

theorem lookup_submitted (submitted : List (Nat × β)) (id other : Nat) (batch : β) :
    (submitted ++ [(other, batch)]).lookup id =
      (submitted.lookup id).or (if id = other then some batch else none) := by
  rw [lookup_append, lookup_cons, lookup_nil]
  by_cases same : id = other
  · rw [if_pos same, beq_iff_eq.mpr same]
  · rw [if_neg same, beq_false_of_ne same]

theorem range'_next {next : Nat} (positive : 1 ≤ next) :
    List.range' 1 (next - 1) ++ [next] = List.range' 1 (next + 1 - 1) := by
  obtain ⟨before, rfl⟩ := Nat.exists_eq_add_of_le positive
  rw [Nat.add_sub_cancel, Nat.add_sub_cancel_left, Nat.add_comm 1 before, List.range'_concat,
    Nat.one_mul, Nat.add_comm 1 before]

theorem inv_startReady {batch : β} (id : Nat) (positive : 1 ≤ state.nextBatchId)
    (started : state.started.map Prod.fst = List.range' 1 (state.nextBatchId - 1))
    (firsts : ∀ id batch, (id, batch) ∈ state.started → state.submitted.lookup id = some batch)
    (pending : ∀ id batch, state.pending id = some batch →
      state.nextBatchId < id ∧ state.submitted.lookup id = some batch)
    (known : ∀ id, state.submitted.lookup id ≠ none → state.nextBatchId < id →
      state.pending id ≠ none) (fits : state.nextBatchId + 1 < batchIds)
    (first : state.submitted.lookup state.nextBatchId = some batch) :
    Inv { startReady state batch with pc := .draining id } := by
  have isNext : (state.nextBatchId + 1) % batchIds = state.nextBatchId + 1 := Nat.mod_eq_of_lt fits
  constructor <;> simp only [startReady, isNext]
  · omega
  · rw [map_append, started]
    exact range'_next positive
  · grind
  · grind
  · exact fun id isKnown above => .inl (known id isKnown (by omega))

theorem inv_submit (inv : Inv state) (isIdle : state.pc = .idle) {id : Nat} {batch : β}
    {starts : Bool} (keeps : keepsBatches state (.submit id batch starts)) :
    Inv (submit state id batch starts) := by
  obtain ⟨positive, started, firsts, pending, known⟩ := inv
  have lookups := lookup_submitted state.submitted
  rw [submit]
  dsimp only
  split
  · -- the id was started before
    constructor <;> grind
  · split
    · have unknown : state.pending id = none → state.submitted.lookup id = none := by grind
      rw [keep]
      split <;> constructor <;> grind
    · obtain rfl : id = state.nextBatchId := by omega
      obtain ⟨fits, again⟩ := keeps rfl
      have first : (state.submitted ++ [(state.nextBatchId, batch)]).lookup state.nextBatchId =
          some batch := by
        rw [lookups]
        cases found : state.submitted.lookup state.nextBatchId with
        | none => simp
        | some earlier => simp [again earlier found]
      split
      · apply inv_startReady <;> grind
      · rw [fail]
        constructor <;> grind

theorem inv_drainReady (inv : Inv state) {id : Nat} {starts : Bool}
    (drains : state.pc = .draining id) (keeps : keepsBatches state (.drain starts)) :
    Inv (drainReady state id starts) := by
  obtain ⟨positive, started, firsts, pending, known⟩ := inv
  rw [drainReady]
  split
  · constructor <;> grind
  · rename_i batch held
    obtain ⟨rfl, fits⟩ := keeps (isSome_of_eq_some held)
    have starts : Inv { startReady { state with
        pending := Function.update state.pending state.nextBatchId none } batch with
        pc := .draining id } := by
      apply inv_startReady <;> grind
    rw [if_pos rfl]
    rwa [← drains] at starts

theorem inv_reachable (reached : system.ReachableUnder keepsBatches state) : Inv state := by
  induction reached with
  | start starts =>
    obtain rfl := starts
    exact inv_initial
  | next reached permitted steps ih =>
    rename_i _ _ action
    cases action with
    | submit id batch starts =>
      obtain ⟨⟨isIdle, -⟩, result⟩ := ite_none_right_eq_some.mp steps
      cases result
      exact inv_submit ih isIdle permitted
    | drain starts =>
      simp only [system, step] at steps
      split at steps
      · cases steps
      · rename_i id drains
        cases steps
        exact inv_drainReady ih drains permitted

end OrderedStarts

end AsyncFlow
