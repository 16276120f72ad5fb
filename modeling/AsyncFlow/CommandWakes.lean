import AsyncFlow.CommandCalls

/-!
# The wake channel is open while commands are accepted

A thread that saw the accepting flag set finds the wake channel open until it leaves
`enqueue`, because the owner clears the flag and waits for the threads inside before
it closes the channel.  While a command is in the queue, the eventfd has a value, the
owner is on its way through the queue, or a producer has not finished its wake-up.
-/

namespace AsyncFlow

open Function

namespace EnqueuePc

variable {α : Type*}

/-- The thread saw the accepting flag set, and has not left `enqueue`. -/
def committed : EnqueuePc α → Bool
  | .pushing _ _ | .publishing _ | .checking _ | .exchanging _ _ | .writing _ _
  | .leaving _ true => true
  | _ => false

/-- The thread pushed a command and has not finished `wake`. -/
def waking : EnqueuePc α → Bool
  | .publishing _ | .checking _ | .exchanging _ _ | .writing _ _ => true
  | _ => false

/-- The descriptor that the thread found open and may still write to. -/
def touches : EnqueuePc α → Option Nat
  | .exchanging _ fd | .writing _ fd => some fd
  | _ => none

/-- The thread set `wake_pending_` and has not written yet. -/
def owesWrite : EnqueuePc α → Bool
  | .writing _ _ => true
  | _ => false

variable {pc : EnqueuePc α}

theorem counted_of_committed (committed : pc.committed = true) : pc.counted = true := by
  cases pc <;> simp_all [EnqueuePc.committed, counted]

theorem committed_of_touches {fd : Nat} (touched : pc.touches = some fd) : pc.committed = true := by
  cases pc <;> first | rfl | cases touched

theorem committed_of_owesWrite (owes : pc.owesWrite = true) : pc.committed = true := by
  cases pc <;> first | rfl | cases owes

end EnqueuePc

namespace ChannelFrame

variable {α κ : Type*}

/-- The call is one of `handle_wake`, or discards what is in the queue. -/
def drains : ChannelFrame α κ → Bool
  | .handlingWake _ | .closing (.discarding _) | .stopping (.discarding _)
  | .stopping (.discardingAgain _) => true
  | _ => false

def waits : ChannelFrame α κ → Bool
  | .handlingWake (.draining (.running _)) | .stopping .releasing | .own _ => true
  | _ => false

def clears : ChannelFrame α κ → Bool
  | .handlingWake .clearing | .closing .clearing => true
  | _ => false

def unregistered : ChannelFrame α κ → Bool
  | .opening .registering | .closing .closing => true
  | _ => false

variable {frame : ChannelFrame α κ}

theorem clears_of_waits (waits : frame.waits = true) : frame.clears = false := by
  cases frame with
  | opening phase | stopping phase | own frame => rfl
  | closing phase => cases waits
  | handlingWake phase =>
    cases phase with
    | clearing => cases waits
    | reading | draining loop => rfl

theorem unregistered_of_waits (waits : frame.waits = true) : frame.unregistered = false := by
  cases frame with
  | opening phase | closing phase => cases waits
  | handlingWake phase | stopping phase | own frame => rfl

end ChannelFrame

namespace CommandChannel

variable {α κ : Type*} {capacity : Nat} {state after : CommandChannel α κ} {producer : Nat}

/-- No thread will push until the accepting flag is set again. -/
structure Quiet (state : CommandChannel α κ) : Prop where
  refusing : state.acceptingCommands = false
  uncommitted : ∀ producer, (state.producers producer).committed = false

def Assertion (state : CommandChannel α κ) : ChannelFrame α κ → Prop
  | .opening .registering =>
    state.wakeFd.isSome = true ∧ state.Quiet ∧ state.commands = [] ∧ state.wakePending = false
  | .opening .accepting => state.wakeFd.isSome = true ∧ state.registered = true
  | .closing .waiting => state.acceptingCommands = false
  | .closing (.discarding _) => state.Quiet
  | .closing .unregistering | .closing .closing => state.Quiet ∧ state.commands = []
  | .closing .clearing => state.wakeFd = none
  | _ => True

theorem assertion_of_waits {frame : ChannelFrame α κ} (waits : frame.waits = true) :
    state.Assertion frame := by
  cases frame with
  | opening phase | closing phase => cases waits
  | handlingWake phase | stopping phase | own frame => trivial

structure Guarded (state : CommandChannel α κ) : Prop where
  opened : state.acceptingCommands = true → state.wakeFd.isSome = true ∧ state.registered = true
  committed : ∀ producer, (state.producers producer).committed = true → state.wakeFd.isSome = true
  touches : ∀ producer fd, (state.producers producer).touches = some fd → state.wakeFd = some fd
  event : state.eventPending = true → state.wakeFd.isSome = true
  closed : state.wakeFd = none → state.commands = []
  registered : state.wakeFd.isSome = true → state.registered = true ∨
    ∃ frame ∈ state.stack.head?, frame.unregistered = true
  top : ∀ frame ∈ state.stack.head?, state.Assertion frame
  below : ∀ frame ∈ state.stack.tail, frame.waits = true
  wake : state.wakePending = true → state.eventPending = true ∨
    (∃ producer, (state.producers producer).owesWrite = true) ∨
      ∃ frame ∈ state.stack.head?, frame.clears = true
  covered : state.commands ≠ [] → state.eventPending = true ∨
    (∃ frame ∈ state.stack, frame.drains = true) ∨
      ∃ producer, (state.producers producer).waking = true

attribute [local grind] EnqueuePc.committed EnqueuePc.touches EnqueuePc.owesWrite EnqueuePc.waking

theorem guarded_fresh : Guarded (fresh : CommandChannel α κ) := by
  constructor <;> grind [fresh]

theorem Guarded.quiet_of_closed (guarded : Guarded state) (closed : state.wakeFd = none) :
    state.Quiet := by
  have opened := guarded.opened
  have committed := guarded.committed
  constructor <;> grind

/-! ### Producers -/

structure SameOwner (state after : CommandChannel α κ) : Prop where
  acceptingCommands : after.acceptingCommands = state.acceptingCommands
  wakeFd : after.wakeFd = state.wakeFd
  registered : after.registered = state.registered
  stack : after.stack = state.stack

variable {pc : EnqueuePc α}

theorem Quiet.producerMoves (quiet : state.Quiet) (same : SameOwner state after)
    (producers : after.producers = update state.producers producer pc)
    (commits : pc.committed = true →
      (state.producers producer).committed = true ∨ state.acceptingCommands = true) :
    after.Quiet := by
  obtain ⟨refusing, uncommitted⟩ := quiet
  refine ⟨same.acceptingCommands.trans refusing, ?_⟩
  rw [producers]
  grind [update_apply]

section

variable (guarded : Guarded state)

include guarded

theorem Guarded.producerMoves (same : SameOwner state after)
    (producers : after.producers = update state.producers producer pc)
    (commits : pc.committed = true →
      (state.producers producer).committed = true ∨ state.acceptingCommands = true)
    (touches : ∀ fd, pc.touches = some fd → state.wakeFd = some fd)
    (queue : state.commands = [] → after.commands = [] ∨
      (state.producers producer).committed = true)
    (pending : after.wakePending = state.wakePending ∨ (state.producers producer).committed = true)
    (event : after.eventPending = true → state.eventPending = true ∨
      (state.producers producer).committed = true)
    (wake : after.wakePending = true → after.eventPending = true ∨
      (∃ producer, (after.producers producer).owesWrite = true) ∨
        ∃ frame ∈ state.stack.head?, frame.clears = true)
    (covered : after.commands ≠ [] → after.eventPending = true ∨
      (∃ frame ∈ state.stack, frame.drains = true) ∨
        ∃ producer, (after.producers producer).waking = true) : Guarded after := by
  obtain ⟨sameAccepting, sameFd, sameRegistered, sameStack⟩ := id same
  have isQuiet : state.Quiet → after.Quiet := fun quiet =>
    quiet.producerMoves same producers commits
  have quiet := guarded.quiet_of_closed
  obtain ⟨opened, committed, touched, events, closed, registered, top, below, -, -⟩ := guarded
  refine ⟨by grind -linarith, ?_, ?_, by grind -linarith, ?_, by grind -linarith, ?_, by grind -linarith, by grind -linarith, by grind -linarith⟩
  · rw [producers, sameFd]
    grind -linarith [update_apply]
  · rw [producers, sameFd]
    grind -linarith [update_apply]
  · grind -linarith
  · rw [sameStack]
    intro frame member
    have isEmpty : state.Quiet → state.commands = [] → after.commands = [] := fun quiet empty =>
      (queue empty).resolve_right (by simp [quiet.uncommitted producer])
    have unset : state.Quiet → after.wakePending = state.wakePending := fun quiet =>
      pending.resolve_right (by simp [quiet.uncommitted producer])
    cases frame with
    | opening phase | closing phase => cases phase <;> grind -linarith [Assertion]
    | _ => trivial

theorem Guarded.wake_update
    (kept : (state.producers producer).owesWrite = true → pc.owesWrite = true)
    (pending : state.wakePending = true) : state.eventPending = true ∨
      (∃ other, (update state.producers producer pc other).owesWrite = true) ∨
        ∃ frame ∈ state.stack.head?, frame.clears = true := by
  rcases guarded.wake pending with event | writer | clears
  · exact .inl event
  · exact .inr (.inl (exists_update writer kept))
  · exact .inr (.inr clears)

theorem Guarded.covered_update (kept : (state.producers producer).waking = true → pc.waking = true)
    (nonempty : state.commands ≠ []) :
    state.eventPending = true ∨ (∃ frame ∈ state.stack, frame.drains = true) ∨
      ∃ other, (update state.producers producer pc other).waking = true := by
  rcases guarded.covered nonempty with event | drains | waker
  · exact .inl event
  · exact .inr (.inl drains)
  · exact .inr (.inr (exists_update waker kept))

theorem Guarded.covered_loses {id fd : Nat} (pc : state.producers producer = .exchanging id fd)
    (pending : state.wakePending = true) :
    state.eventPending = true ∨ (∃ frame ∈ state.stack, frame.drains = true) ∨
      ∃ other, (update state.producers producer (.leaving id true) other).waking = true := by
  rcases guarded.wake pending with event | ⟨writer, owes⟩ | ⟨frame, onTop, clears⟩
  · exact .inl event
  · have different : writer ≠ producer := by
      rintro rfl
      rw [pc] at owes
      cases owes
    refine .inr (.inr ⟨writer, ?_⟩)
    rw [update_of_ne different]
    cases writing : state.producers writer <;> rw [writing] at owes <;> first | rfl | cases owes
  · -- the channel is open, so it is `handle_wake` that clears the flag, and drains then
    have isOpen := guarded.touches producer fd (by rw [pc]; rfl)
    have holds := guarded.top frame onTop
    refine .inr (.inl ⟨frame, List.mem_of_mem_head? onTop, ?_⟩)
    cases frame with
    | handlingWake phase => rfl
    | opening phase | stopping phase | own frame => cases clears
    | closing phase =>
      cases phase with
      | clearing =>
        rw [show state.wakeFd = none from holds] at isOpen
        cases isOpen
      | sealing | waiting | discarding loop | unregistering | closing => cases clears

theorem Guarded.stepProducer {room : Bool}
    (steps : state.stepProducer capacity producer room = some after) : Guarded after := by
  have moves := stepProducer_cases steps
  have committed := guarded.committed producer
  have touches := guarded.touches producer
  have wake := fun {pc} => @guarded.wake_update _ _ _ producer pc
  have covered := fun {pc} => @guarded.covered_update _ _ _ producer pc
  generalize pc : state.producers producer = before at moves
  rw [pc] at committed touches
  cases moves with
  | unopened closed | unwritten closed => grind -linarith
  | loses pending =>
    refine guarded.producerMoves ⟨rfl, rfl, rfl, rfl⟩ rfl ?_ ?_ .inl (.inl rfl) .inl
      (wake ?_) (fun _ => guarded.covered_loses pc pending) <;> grind -linarith
  | pushes fits | publishes =>
    refine guarded.producerMoves ⟨rfl, rfl, rfl, rfl⟩ rfl ?_ ?_ ?_ (.inl rfl) .inl (wake ?_)
      (fun _ => .inr (.inr ⟨producer, by simp [withProducer, EnqueuePc.waking]⟩)) <;> grind -linarith
  | wins =>
    refine guarded.producerMoves ⟨rfl, rfl, rfl, rfl⟩ rfl ?_ ?_ .inl ?_ .inl
      (fun _ => .inr (.inl ⟨producer, by simp [withProducer, EnqueuePc.owesWrite]⟩))
      (covered ?_) <;> grind -linarith
  | writes =>
    refine guarded.producerMoves ⟨rfl, rfl, rfl, rfl⟩ rfl ?_ ?_ .inl (.inl rfl) ?_
      (fun _ => .inl rfl) (fun _ => .inl rfl) <;> grind -linarith
  | _ =>
    refine guarded.producerMoves ⟨rfl, rfl, rfl, rfl⟩ rfl ?_ ?_ .inl (.inl rfl) .inl
      (wake ?_) (covered ?_) <;> grind -linarith

end

end CommandChannel

end AsyncFlow
