import AsyncFlow.CommandWakes

/-!
# The owner of a command channel

The steps of `open_wake_channel`, `handle_wake`, `close_wake_channel` and
`stop_on_owner` keep the channel open while commands are accepted, and leave no
command behind without a wake-up.
-/

namespace AsyncFlow

open List

namespace CommandChannel

variable {α κ : Type*} {capacity : Nat} {state after : CommandChannel α κ}
  {frame : ChannelFrame α κ} {rest : List (ChannelFrame α κ)}

attribute [local grind] withStack Assertion ChannelFrame.unregistered ChannelFrame.clears
  ChannelFrame.drains ChannelFrame.waits

theorem Quiet.ownerMoves (quiet : state.Quiet) (producers : after.producers = state.producers)
    (refusing : after.acceptingCommands = false) : after.Quiet where
  refusing := refusing
  uncommitted := by
    rw [producers]
    exact quiet.uncommitted

theorem Guarded.wake_of_quiet (guarded : Guarded state) (quiet : state.Quiet)
    (pending : state.wakePending = true) :
    state.eventPending = true ∨ ∃ frame ∈ state.stack.head?, frame.clears = true := by
  rcases guarded.wake pending with event | ⟨writer, owes⟩ | clears
  · exact .inl event
  · have isCommitted := EnqueuePc.committed_of_owesWrite owes
    rw [quiet.uncommitted] at isCommitted
    cases isCommitted
  · exact .inr clears

theorem Guarded.replaceTop (guarded : Guarded state) (next : Option (ChannelFrame α κ))
    (stacked : state.stack = frame :: rest) (restacked : after.stack = next.toList ++ rest)
    (producers : after.producers = state.producers)
    (wakeFd : after.wakeFd = state.wakeFd ∨ state.Quiet) (opened : after.acceptingCommands = true →
      after.wakeFd.isSome = true ∧ after.registered = true)
    (event : after.eventPending = true → after.wakeFd.isSome = true)
    (closed : after.wakeFd = none → after.commands = [])
    (registered : after.wakeFd.isSome = true → after.registered = true ∨
      ∃ frame ∈ next, frame.unregistered = true) (top : ∀ frame ∈ next, after.Assertion frame)
    (wake : after.wakePending = true → after.eventPending = true ∨
      (∃ producer, (state.producers producer).owesWrite = true) ∨
        ∃ frame ∈ next, frame.clears = true)
    (covered : after.commands ≠ [] → after.eventPending = true ∨
      (∃ frame ∈ next, frame.drains = true) ∨ (∃ frame ∈ rest, frame.drains = true) ∨
        ∃ producer, (state.producers producer).waking = true) : Guarded after := by
  have below : ∀ frame ∈ rest, frame.waits = true := fun frame member =>
    guarded.below frame (by rw [stacked]; exact member)
  have committed : ∀ producer, (state.producers producer).committed = true →
      after.wakeFd = state.wakeFd := fun producer isCommitted =>
    wakeFd.resolve_right fun quiet => by simp [quiet.uncommitted producer] at isCommitted
  have onTop : ∀ frame ∈ next, frame ∈ after.stack.head? := by
    rintro frame ⟨⟩
    rw [restacked]
    rfl
  constructor
  case opened => exact opened
  case event => exact event
  case closed => exact closed
  case committed =>
    rw [producers]
    exact fun producer isCommitted =>
      committed producer isCommitted ▸ guarded.committed producer isCommitted
  case touches =>
    rw [producers]
    exact fun producer fd touched =>
      (committed producer (EnqueuePc.committed_of_touches touched)).trans
        (guarded.touches producer fd touched)
  case registered => exact fun isOpen => by grind
  case wake => rw [producers]; grind
  case top | below =>
    intro frame member
    rw [restacked] at member
    cases next <;> grind [assertion_of_waits, mem_of_mem_head?, mem_of_mem_tail]
  case covered =>
    rw [producers, restacked]
    grind

structure TopFacts (state : CommandChannel α κ) (frame : ChannelFrame α κ)
    (rest : List (ChannelFrame α κ)) : Prop where
  holds : state.Assertion frame
  registered : state.wakeFd.isSome = true → frame.unregistered = false → state.registered = true
  wake : state.wakePending = true → frame.clears = false → state.eventPending = true ∨
    ∃ producer, (state.producers producer).owesWrite = true
  covered : state.commands ≠ [] → frame.drains = false → state.eventPending = true ∨
    (∃ frame ∈ rest, frame.drains = true) ∨ ∃ producer, (state.producers producer).waking = true

theorem Guarded.topFacts (guarded : Guarded state) (stacked : state.stack = frame :: rest) :
    TopFacts state frame rest := by
  constructor
  case holds => exact guarded.top frame (by rw [stacked]; rfl)
  case registered => grind [guarded.registered]
  case wake => grind [guarded.wake]
  case covered => grind [guarded.covered]

theorem Guarded.goesOn (guarded : Guarded state) (next : Option (ChannelFrame α κ))
    (stacked : state.stack = frame :: rest) (registered : frame.unregistered = false)
    (clears : frame.clears = false)
    (drains : frame.drains = false ∨ ∃ top ∈ next, top.drains = true)
    (top : ∀ frame ∈ next, (state.withStack (next.toList ++ rest)).Assertion frame) :
    Guarded (state.withStack (next.toList ++ rest)) := by
  obtain ⟨-, isRegistered, wake, covered⟩ := guarded.topFacts stacked
  refine guarded.replaceTop next stacked rfl rfl (.inl rfl) guarded.opened guarded.event
    guarded.closed ?_ top ?_ ?_ <;> grind

/-! ### Opening the channel -/

theorem Guarded.stepOpening (guarded : Guarded state) {phase : OpenPhase}
    (stacked : state.stack = .opening phase :: rest) (succeeds : Bool) :
    Guarded (state.stepOpening rest succeeds phase) := by
  obtain ⟨holds, registered, wake, covered⟩ := guarded.topFacts stacked
  have moves := stepOpening_cases state rest succeeds phase
  generalize state.stepOpening rest succeeds phase = after at moves ⊢
  cases moves with
  | found wakeFd =>
    refine guarded.replaceTop (some (.opening .accepting)) stacked rfl rfl (.inl rfl)
      ?_ ?_ ?_ ?_ ?_ ?_ ?_ <;>
      grind -linarith [guarded.opened, guarded.event, guarded.closed]
  | creates wakeFd =>
    have quiet := guarded.quiet_of_closed wakeFd
    have empty := guarded.closed wakeFd
    have unset : state.wakePending = false := by
      grind -linarith [guarded.wake_of_quiet quiet, guarded.event]
    refine guarded.replaceTop (some (.opening .registering)) stacked rfl rfl (.inr quiet) ?_ ?_ ?_
      (fun _ => .inr ⟨_, rfl, rfl⟩) ?_ ?_ ?_ <;>
      grind -linarith [quiet.refusing, quiet.ownerMoves]
  | fails wakeFd => exact guarded.goesOn none stacked rfl rfl (.inl rfl) (by simp)
  | registers =>
    refine guarded.replaceTop (some (.opening .accepting)) stacked rfl rfl (.inl rfl)
      ?_ ?_ ?_ ?_ ?_ ?_ ?_ <;>
      grind -linarith [guarded.event, guarded.closed]
  | refused =>
    obtain ⟨isOpen, quiet, empty, unset⟩ := holds
    refine guarded.replaceTop none stacked rfl rfl (.inr quiet) ?_ ?_ ?_ ?_ ?_ ?_ ?_ <;>
      grind -linarith [quiet.refusing]
  | accepts =>
    refine guarded.replaceTop none stacked rfl rfl (.inl rfl) ?_ ?_ ?_ ?_ ?_ ?_ ?_ <;>
      grind -linarith [guarded.opened, guarded.event, guarded.closed]

/-! ### Loops around `try_pop_many` -/

theorem Guarded.stepFrameLoop (guarded : Guarded state) (inventory : Inventory state)
    (fate : Fate) {loop : CommandLoop α} {inLoop : CommandLoop α → ChannelFrame α κ}
    (next : Option (ChannelFrame α κ)) (stacked : state.stack = inLoop loop :: rest)
    (plain : ∀ loop, (inLoop loop).unregistered = false ∧ (inLoop loop).clears = false)
    (drains : ∀ loop, (inLoop loop).drains = true)
    (holds : ∀ loop (after : CommandChannel α κ), after.producers = state.producers →
      after.acceptingCommands = state.acceptingCommands → after.Assertion (inLoop loop))
    (leaves : (state.commands ≠ [] → ∃ producer, (state.producers producer).committed = true) →
      ∀ frame ∈ next, (state.withStack (next.toList ++ rest)).Assertion frame) :
    Guarded (state.stepFrameLoop fate loop inLoop next.toList rest) := by
  obtain ⟨-, registered, wake, covered⟩ := guarded.topFacts stacked
  -- inside the loop the call on top still goes through the queue
  have inside : ∀ (loop : CommandLoop α) (after : CommandChannel α κ),
      after.stack = inLoop loop :: rest → after.producers = state.producers →
      after.acceptingCommands = state.acceptingCommands → after.wakeFd = state.wakeFd →
      after.registered = state.registered → after.eventPending = state.eventPending →
      after.wakePending = state.wakePending → (state.commands = [] → after.commands = []) →
      Guarded after := by
    intro loop after restacked producers accepting wakeFd isRegistered event pending empty
    refine guarded.replaceTop (some (inLoop loop)) stacked restacked producers (.inl wakeFd)
      ?_ ?_ ?_ ?_ ?_ ?_ (fun _ => .inr (.inl ⟨inLoop loop, rfl, drains loop⟩)) <;>
      grind [guarded.opened, guarded.event, guarded.closed]
  have moves := stepFrameLoop_cases state fate loop inLoop next.toList rest
  generalize state.stepFrameLoop fate loop inLoop next.toList rest = after at moves ⊢
  cases moves with
  | takes commands published =>
    exact inside _ _ rfl rfl rfl rfl rfl rfl rfl fun empty => by grind
  | fills | again => exact inside _ _ rfl rfl rfl rfl rfl rfl rfl id
  | handles =>
    cases fate <;> exact inside _ _ rfl rfl rfl rfl rfl rfl rfl id
  | ends stuck =>
    -- a position that is not published belongs to a thread inside `enqueue`
    have publisher : state.commands ≠ [] →
        ∃ producer id, state.producers producer = .publishing id := by
      intro nonempty
      obtain ⟨queued, queue, commands⟩ := exists_cons_of_ne_nil nonempty
      obtain ⟨producer, publishing⟩ := inventory.unpublished queued
        (by rw [commands]; exact mem_cons_self) (stuck queued queue commands)
      exact ⟨producer, _, publishing⟩
    have follows := leaves fun nonempty => by
      obtain ⟨producer, id, publishing⟩ := publisher nonempty
      exact ⟨producer, by rw [publishing]; rfl⟩
    refine guarded.replaceTop next stacked rfl rfl (.inl rfl) guarded.opened guarded.event
      guarded.closed ?_ follows ?_ (fun nonempty => ?_)
    · grind
    · grind
    · obtain ⟨producer, id, publishing⟩ := publisher nonempty
      exact .inr (.inr (.inr ⟨producer, by rw [publishing]; rfl⟩))

theorem Guarded.stepHandlingWake (guarded : Guarded state) (inventory : Inventory state)
    {phase : WakePhase α} (stacked : state.stack = .handlingWake phase :: rest) :
    Guarded (state.stepHandlingWake rest phase) := by
  obtain ⟨-, registered, wake, covered⟩ := guarded.topFacts stacked
  cases phase with
  | reading =>
    refine guarded.replaceTop (some (.handlingWake .clearing)) stacked rfl rfl (.inl rfl)
      guarded.opened ?_ guarded.closed ?_ ?_ (fun _ => .inr (.inr ⟨_, rfl, rfl⟩))
      (fun _ => .inr (.inl ⟨_, rfl, rfl⟩)) <;>
      grind [CommandChannel.stepHandlingWake]
  | clearing =>
    refine guarded.replaceTop (some (.handlingWake (.draining (.popping [])))) stacked rfl rfl
      (.inl rfl) guarded.opened guarded.event guarded.closed ?_ ?_ ?_
      (fun _ => .inr (.inl ⟨_, rfl, rfl⟩)) <;>
      grind [CommandChannel.stepHandlingWake]
  | draining loop =>
    exact guarded.stepFrameLoop inventory .execute none stacked (fun _ => ⟨rfl, rfl⟩)
      (fun _ => rfl) (fun _ _ _ _ => trivial) (fun _ _ isNext => (by cases isNext))

/-! ### Closing the channel -/

theorem Inventory.quiet_of_unused (inventory : Inventory state) (unused : state.activeEnqueues = 0)
    (refusing : state.acceptingCommands = false) : state.Quiet where
  refusing := refusing
  uncommitted := fun producer => by
    have counted := inventory.counted
    rw [unused] at counted
    by_contra isCommitted
    rw [Bool.not_eq_false] at isCommitted
    have isCounted := EnqueuePc.counted_of_committed isCommitted
    rw [counted.none_inside producer] at isCounted
    cases isCounted

section

variable (guarded : Guarded state) (inventory : Inventory state)

include guarded inventory

theorem Guarded.stepClosing {phase : ClosePhase α} (stacked : state.stack = .closing phase :: rest)
    (steps : state.stepClosing rest phase = some after) : Guarded after := by
  obtain ⟨holds, registered, wake, covered⟩ := guarded.topFacts stacked
  cases phase with
  | sealing =>
    cases steps
    refine guarded.replaceTop (some (.closing .waiting)) stacked rfl rfl (.inl rfl)
      ?_ guarded.event guarded.closed ?_ ?_ ?_ ?_ <;> grind -linarith
  | waiting =>
    rw [CommandChannel.stepClosing] at steps
    split at steps
    · rename_i unused
      cases steps
      refine guarded.goesOn (some (.closing (.discarding (.popping [])))) stacked rfl rfl
        (.inl rfl) ?_
      rintro frame ⟨⟩
      exact (inventory.quiet_of_unused unused holds).ownerMoves rfl holds
    · cases steps
  | discarding loop =>
    cases steps
    have quiet : state.Quiet := holds
    refine guarded.stepFrameLoop inventory .discard (some (.closing .unregistering)) stacked
      (fun _ => ⟨rfl, rfl⟩) (fun _ => rfl)
      (fun _ _ producers accepting => quiet.ownerMoves producers (accepting.trans quiet.refusing))
      fun committed => ?_
    rintro frame ⟨⟩
    refine ⟨quiet.ownerMoves rfl quiet.refusing, ?_⟩
    grind -linarith [quiet.uncommitted]
  | unregistering =>
    cases steps
    obtain ⟨quiet, empty⟩ := holds
    refine guarded.replaceTop (some (.closing .closing)) stacked rfl rfl (.inl rfl)
      ?_ guarded.event guarded.closed (fun _ => .inr ⟨_, rfl, rfl⟩) ?_ ?_ ?_ <;>
      grind -linarith [quiet.refusing, quiet.ownerMoves]
  | closing =>
    cases steps
    obtain ⟨quiet, empty⟩ := holds
    refine guarded.replaceTop (some (.closing .clearing)) stacked rfl rfl (.inr quiet)
      ?_ ?_ ?_ ?_ ?_ (fun _ => .inr (.inr ⟨_, rfl, rfl⟩)) ?_ <;> grind -linarith [quiet.refusing]
  | clearing =>
    cases steps
    refine guarded.replaceTop none stacked rfl rfl (.inl rfl) guarded.opened guarded.event
      guarded.closed ?_ ?_ ?_ ?_ <;> grind -linarith [guarded.closed]

theorem Guarded.stepStopping {phase : OwnerStopPhase α}
    (stacked : state.stack = .stopping phase :: rest)
    (steps : state.stepStopping rest phase = some after) : Guarded after := by
  obtain ⟨holds, registered, wake, covered⟩ := guarded.topFacts stacked
  cases phase with
  | sealing =>
    cases steps
    refine guarded.replaceTop (some (.stopping .waiting)) stacked rfl rfl (.inl rfl)
      ?_ guarded.event guarded.closed ?_ ?_ ?_ ?_ <;> grind
  | waiting =>
    rw [CommandChannel.stepStopping] at steps
    split at steps
    · cases steps
      exact guarded.goesOn (some _) stacked rfl rfl (.inl rfl) (by rintro frame ⟨⟩; trivial)
    · cases steps
  | releasing =>
    cases steps
    exact guarded.goesOn (some _) stacked rfl rfl (.inl rfl) (by rintro frame ⟨⟩; trivial)
  | discarding loop | discardingAgain loop =>
    cases steps
    exact guarded.stepFrameLoop inventory .discard (some _) stacked
      (fun _ => ⟨rfl, rfl⟩) (fun _ => rfl) (fun _ _ _ _ => trivial)
      (fun _ => by rintro frame ⟨⟩; trivial)

theorem Guarded.stepOwner {succeeds : Bool} (steps : state.stepOwner succeeds = some after)
    : Guarded after := by
  unfold CommandChannel.stepOwner at steps
  split at steps
  · cases steps
  · rename_i phase rest stacked
    cases steps
    exact guarded.stepOpening stacked succeeds
  · rename_i phase rest stacked
    cases steps
    exact guarded.stepHandlingWake inventory stacked
  · rename_i phase rest stacked
    exact guarded.stepClosing inventory stacked steps
  · rename_i phase rest stacked
    exact guarded.stepStopping inventory stacked steps
  · cases steps

end

/-! ### Calls that begin and end -/

theorem Operation.frames_plain (operation : Operation κ) :
    ∃ first others, (operation.frames : List (ChannelFrame α κ)) = first :: others ∧
      (∀ state : CommandChannel α κ, state.Assertion first) ∧
        ∀ frame ∈ others, frame.waits = true := by
  cases operation with
  | start frame => exact ⟨_, _, rfl, fun _ => trivial, by simp [ChannelFrame.waits]⟩
  | openChannel | handleWake | closeChannel | stopOnOwner =>
    exact ⟨_, _, rfl, fun _ => trivial, by simp⟩

variable {operation : Operation κ}

theorem mayBegin_of_enabled (enabled : operation.enabled state = true) : state.mayBegin = true := by
  cases operation with
  | handleWake => rw [CommandChannel.mayBegin, isEmpty_iff.mp enabled]
  | openChannel | closeChannel | stopOnOwner | start frame => exact enabled

theorem waits_of_enabled (enabled : operation.enabled state = true)
    (member : frame ∈ state.stack.head?) : frame.waits = true := by
  have mayBegin := mayBegin_of_enabled enabled
  unfold CommandChannel.mayBegin at mayBegin
  split at mayBegin
  case h_1 empty =>
    rw [empty] at member
    cases member
  case h_4 => cases mayBegin
  all_goals
    rename_i stacked
    rw [stacked] at member
    cases member
    rfl

section

variable (guarded : Guarded state)

include guarded

theorem Guarded.begin (begins : state.begin operation = some after) : Guarded after := by
  obtain ⟨enabled, rfl⟩ := begin_eq begins
  obtain ⟨first, others, frames, holds, waits⟩ :
      ∃ first others, (operation.frames : List (ChannelFrame α κ)) = first :: others ∧
        (∀ state : CommandChannel α κ, state.Assertion first) ∧
          ∀ frame ∈ others, frame.waits = true := operation.frames_plain
  have oldTop : ∀ frame ∈ state.stack.head?, frame.waits = true :=
    fun _ member => waits_of_enabled enabled member
  have oldFrames : ∀ frame ∈ state.stack, frame.waits = true := by
    cases stacked : state.stack <;> grind [guarded.below]
  constructor
  case opened => exact guarded.opened
  case committed => exact guarded.committed
  case touches => exact guarded.touches
  case event => exact guarded.event
  case closed => exact guarded.closed
  case registered => grind [guarded.registered, ChannelFrame.unregistered_of_waits]
  case top | below => grind
  case wake =>
    dsimp only [withStack]
    grind [guarded.wake, ChannelFrame.clears_of_waits]
  case covered =>
    dsimp only [withStack]
    grind [guarded.covered]

theorem Guarded.leaveOwn {closes : Bool} (leaves : state.leaveOwn closes = some after)
    : Guarded after := by
  obtain ⟨frame, rest, stacked, rfl⟩ := leaveOwn_eq leaves
  cases closes with
  | true =>
    exact guarded.goesOn (some (.closing .sealing)) stacked rfl rfl (.inl rfl)
      (by rintro frame ⟨⟩; trivial)
  | false => exact guarded.goesOn none stacked rfl rfl (.inl rfl) (by simp)

theorem Guarded.sealCommands : Guarded state.sealCommands := by
  have quiet : state.Quiet → state.sealCommands.Quiet := fun quiet => quiet.ownerMoves rfl rfl
  refine { guarded with
    opened := fun accepting => (by cases accepting)
    top := fun frame member => ?_ }
  have holds := guarded.top frame member
  cases frame with
  | opening phase =>
    cases phase with
    | creating => trivial
    | registering => exact ⟨holds.1, quiet holds.2.1, holds.2.2⟩
    | accepting => exact holds
  | closing phase =>
    cases phase with
    | sealing => trivial
    | waiting => rfl
    | discarding loop => exact quiet holds
    | unregistering | closing => exact ⟨quiet holds.1, holds.2⟩
    | clearing => exact holds
  | handlingWake phase | stopping phase | own frame => trivial

theorem Guarded.call {producer : Nat} {command : α}
    (calls : state.call producer command = some after) : Guarded after := by
  obtain ⟨isIdle, rfl⟩ := call_eq calls
  refine guarded.producerMoves ⟨rfl, rfl, rfl, rfl⟩ rfl
    (fun isCommitted => (by cases isCommitted)) (fun _ touched => (by cases touched)) .inl (.inl rfl) .inl
    (guarded.wake_update fun owes => ?_) (guarded.covered_update fun wakes => ?_)
  · rw [isIdle] at owes
    cases owes
  · rw [isIdle] at wakes
    cases wakes

theorem Guarded.move (inventory : Inventory state) {move : Move α κ}
    (moves : state.move capacity move = some after) : Guarded after := by
  cases move with
  | call producer command => exact guarded.call moves
  | producer producer room => exact guarded.stepProducer moves
  | begin operation => exact guarded.begin moves
  | owner succeeds => exact guarded.stepOwner inventory moves
  | leaveOwn closes => exact guarded.leaveOwn moves
  | sealCommands =>
    cases moves
    exact guarded.sealCommands

end

end CommandChannel

end AsyncFlow
