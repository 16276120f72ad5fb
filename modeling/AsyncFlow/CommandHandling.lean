import AsyncFlow.CommandOwner

/-!
# What a move works off

The steps of the owner alone work commands off, one at a time, and they do not
change what the producers did.
-/

namespace AsyncFlow

open List

namespace CommandChannel

variable {α κ : Type*} {capacity : Nat} {state after : CommandChannel α κ}

def handledBy (state : CommandChannel α κ) : Move α κ → Option (Fate × QueuedCommand α)
  | .owner _ => state.handling
  | _ => none

/-- The history after a command was worked off, or not. -/
def Handled (state after : CommandChannel α κ) : Option (Fate × QueuedCommand α) → Prop
  | some (fate, queued) =>
    queued ∈ state.kept ∧ after.executed = (state.handle fate queued).executed ∧
      after.discarded = (state.handle fate queued).discarded
  | none => after.executed = state.executed ∧ after.discarded = state.discarded

/-- What a step of the call on top does to the history and to the stack. -/
structure OwnerEffect (state after : CommandChannel α κ) (frame : ChannelFrame α κ)
    (rest : List (ChannelFrame α κ)) (handled : Option (Fate × QueuedCommand α)) : Prop where
  calls : SameCalls state after
  history : Handled state after handled
  stack : ∃ next : Option (ChannelFrame α κ), after.stack = next.toList ++ rest ∧
    ∀ top ∈ next, isOwn top = false ∧ (isOpening frame = true → isOpening top = true)

variable {frame : ChannelFrame α κ} {rest : List (ChannelFrame α κ)}
  {handled : Option (Fate × QueuedCommand α)}

theorem OwnerEffect.goesOn (top : ChannelFrame α κ) (calls : SameCalls state after)
    (history : Handled state after handled) (stack : after.stack = top :: rest)
    (notOwn : isOwn top = false) (opening : isOpening frame = true → isOpening top = true) :
    OwnerEffect state after frame rest handled := by
  refine ⟨calls, history, some top, stack, ?_⟩
  rintro other ⟨⟩
  exact ⟨notOwn, opening⟩

theorem ownerEffect_stepFrameLoop (fate : Fate) {loop : CommandLoop α}
    {inLoop : CommandLoop α → ChannelFrame α κ} (next : Option (ChannelFrame α κ))
    (stacked : state.stack = inLoop loop :: rest)
    (inLoop_batch : ∀ loop, (inLoop loop).batch = loop.batch)
    (plain : ∀ loop, isOwn (inLoop loop) = false ∧ isOpening (inLoop loop) = false)
    (follows : ∀ top ∈ next, isOwn top = false) :
    OwnerEffect state (state.stepFrameLoop fate loop inLoop next.toList rest) (inLoop loop) rest
      (loopHandling fate loop) := by
  have notOpening : ∀ {top : ChannelFrame α κ},
      isOpening (inLoop loop) = true → isOpening top = true := by
    intro top opening
    rw [(plain loop).2] at opening
    cases opening
  have moves := stepFrameLoop_cases state fate loop inLoop next.toList rest
  generalize state.stepFrameLoop fate loop inLoop next.toList rest = after at moves ⊢
  cases moves with
  | ends stuck =>
    exact ⟨⟨rfl, rfl, rfl, rfl, rfl⟩, ⟨rfl, rfl⟩, next, rfl,
      fun top isNext => ⟨follows top isNext, notOpening⟩⟩
  | takes commands published | fills | again =>
    exact .goesOn _ ⟨rfl, rfl, rfl, rfl, rfl⟩ ⟨rfl, rfl⟩ rfl (plain _).1 notOpening
  | handles =>
    refine .goesOn _ (by cases fate <;> exact ⟨rfl, rfl, rfl, rfl, rfl⟩)
      ⟨mem_append_right _ ?_, rfl, rfl⟩ rfl (plain _).1 notOpening
    rw [hand, stacked, flatMap_cons, inLoop_batch]
    exact mem_cons_self

theorem ownerEffect_stepOwner {succeeds : Bool} (steps : state.stepOwner succeeds = some after) :
    ∃ frame rest, state.stack = frame :: rest ∧ isOwn frame = false ∧
      OwnerEffect state after frame rest state.handling := by
  cases stepOwner_cases steps with
  | loops next stacked isAfter handles inLoop_batch plain follows =>
    rw [handles, isAfter]
    exact ⟨_, _, stacked, (plain _).1, ownerEffect_stepFrameLoop _ next stacked inLoop_batch plain
      fun top isNext => (follows top isNext).1⟩
  | moves next stacked restacked same commands executed discarded plain follows =>
    rw [plain.1]
    exact ⟨_, _, stacked, plain.2.1, same, ⟨executed, discarded⟩, next, restacked,
      fun top isNext => ⟨(follows top isNext).1, (follows top isNext).2.2⟩⟩

inductive MoveEffect (state after : CommandChannel α κ) : Move α κ → Prop
  | owner {succeeds : Bool} {frame : ChannelFrame α κ} {rest : List (ChannelFrame α κ)}
      (stacked : state.stack = frame :: rest) (notOwn : isOwn frame = false)
      (effect : OwnerEffect state after frame rest state.handling) :
      MoveEffect state after (.owner succeeds)
  | begin {operation : Operation κ} (enabled : operation.enabled state = true)
      (begun : after = state.withStack (operation.frames ++ state.stack)) :
      MoveEffect state after (.begin operation)
  | leaveOwn {closes : Bool} {own : κ} {rest : List (ChannelFrame α κ)}
      (stacked : state.stack = .own own :: rest)
      (left : after = state.withStack (if closes then .closing .sealing :: rest else rest)) :
      MoveEffect state after (.leaveOwn closes)
  | outside {move : Move α κ} {commands : List α} (unhandled : state.handledBy move = none)
      (history : Handled state after none) (stack : after.stack = state.stack)
      (issued : after.issued = state.issued ++ commands)
      (accepted : state.Quiet → after.accepted = state.accepted) : MoveEffect state after move

section

variable {move : Move α κ} (moves : state.move capacity move = some after)

include moves

theorem moveEffect_move : MoveEffect state after move := by
  cases move with
  | owner succeeds =>
    obtain ⟨frame, rest, stacked, notOwn, effect⟩ := ownerEffect_stepOwner moves
    exact .owner stacked notOwn effect
  | begin operation =>
    obtain ⟨enabled, begun⟩ := begin_eq moves
    exact .begin enabled begun
  | leaveOwn closes =>
    obtain ⟨own, rest, stacked, left⟩ := leaveOwn_eq moves
    exact .leaveOwn stacked left
  | call producer command =>
    obtain ⟨-, rfl⟩ := call_eq moves
    exact .outside rfl ⟨rfl, rfl⟩ rfl rfl fun _ => rfl
  | producer producer room =>
    have accesses := stepProducer_cases moves
    have uncommitted := fun quiet : state.Quiet => quiet.uncommitted producer
    generalize state.producers producer = pc at accesses uncommitted
    cases accesses with
    | @leaves _ pushed =>
      refine .outside rfl ⟨rfl, rfl⟩ rfl (append_nil _).symm fun quiet => ?_
      cases pushed with
      | true => cases uncommitted quiet
      | false => rfl
    | _ => exact .outside rfl ⟨rfl, rfl⟩ rfl (append_nil _).symm fun _ => rfl
  | sealCommands =>
    cases moves
    exact .outside rfl ⟨rfl, rfl⟩ rfl (append_nil _).symm fun _ => rfl

theorem handled_move : Handled state after (state.handledBy move) := by
  cases moveEffect_move moves with
  | owner stacked notOwn effect => exact effect.history
  | begin _ isAfter | leaveOwn _ isAfter =>
    subst isAfter
    exact ⟨rfl, rfl⟩
  | outside unhandled history =>
    rw [unhandled]
    exact history

theorem issued_move : ∃ commands, after.issued = state.issued ++ commands ∧
      (state.handledBy move ≠ none → commands = []) := by
  cases moveEffect_move moves with
  | owner stacked notOwn effect =>
    exact ⟨[], by rw [effect.calls.issued, append_nil], fun _ => rfl⟩
  | begin _ isAfter | leaveOwn _ isAfter =>
    subst isAfter
    exact ⟨[], (append_nil _).symm, fun _ => rfl⟩
  | outside unhandled _ _ issued => exact ⟨_, issued, fun handles => absurd unhandled handles⟩

end

theorem Inventory.places_unissued (inventory : Inventory state) {id : Nat}
    (unissued : state.issued.length ≤ id) : state.places id = 0 := by
  rw [inventory.balance]
  exact count_eq_zero_of_not_mem fun member =>
    absurd (inventory.pushedKnown id member) (Nat.not_lt.mpr unissued)

theorem accepted_of_quiet (quiet : state.Quiet) {move : Move α κ}
    (moves : state.move capacity move = some after) : after.accepted = state.accepted := by
  cases moveEffect_move moves with
  | owner stacked notOwn effect => exact effect.calls.accepted
  | begin _ isAfter | leaveOwn _ isAfter => rw [isAfter, withStack]
  | outside _ _ _ _ accepted => exact accepted quiet

/-! ### Where the calls of the shard wait -/

/-- A call of the shard is on top of the stack, or waits for the `open_wake_channel`
on top. -/
structure OwnOnTop (stack : List (ChannelFrame α κ)) : Prop where
  deep : ∀ frame ∈ stack.tail.tail, isOwn frame = false
  second : ∀ frame ∈ stack.head?, isOpening frame = false → ∀ below ∈ stack.tail,
    isOwn below = false

theorem OwnOnTop.of_tail {stack : List (ChannelFrame α κ)}
    (free : ∀ frame ∈ stack.tail, isOwn frame = false) : OwnOnTop stack where
  deep := fun frame member => free frame (mem_of_mem_tail member)
  second := fun _ _ _ => free

theorem OwnOnTop.free_of_enabled (onTop : OwnOnTop state.stack) {operation : Operation κ}
    (enabled : operation.enabled state = true) : ∀ frame ∈ state.stack, isOwn frame = false := by
  have mayBegin := mayBegin_of_enabled enabled
  have below : ∀ top rest, state.stack = top :: rest → isOwn top = false →
      isOpening top = false → ∀ frame ∈ state.stack, isOwn frame = false := by
    intro top rest stacked notOwn notOpening frame member
    rw [stacked] at onTop member
    rcases mem_cons.mp member with rfl | inRest
    · exact notOwn
    · exact onTop.second top rfl notOpening frame inRest
  unfold CommandChannel.mayBegin at mayBegin
  split at mayBegin
  · rename_i empty
    rw [empty]
    exact fun frame member => (by cases member)
  · rename_i stacked
    exact below _ _ stacked rfl rfl
  · rename_i stacked
    exact below _ _ stacked rfl rfl
  · cases mayBegin

theorem OwnOnTop.move (onTop : OwnOnTop state.stack) {move : Move α κ}
    (moves : state.move capacity move = some after) : OwnOnTop after.stack := by
  cases moveEffect_move moves with
  | owner stacked notOwn effect =>
    obtain ⟨next, restacked, tops⟩ := effect.stack
    rw [stacked] at onTop
    rw [restacked]
    cases next with
    | none => exact .of_tail onTop.deep
    | some top =>
      refine ⟨onTop.deep, ?_⟩
      rintro other ⟨⟩ notOpening
      exact onTop.second _ rfl (by grind)
  | @begin operation enabled begun =>
    subst begun
    have free := onTop.free_of_enabled enabled
    cases operation with
    | start own =>
      refine ⟨fun frame member => free frame member, ?_⟩
      rintro top ⟨⟩ notOpening
      cases notOpening
    | openChannel | handleWake | closeChannel | stopOnOwner => exact .of_tail free
  | @leaveOwn closes own rest stacked left =>
    subst left
    rw [stacked] at onTop
    have free := onTop.second (.own own) rfl rfl
    cases closes with
    | true => exact .of_tail free
    | false => exact .of_tail fun frame member => free frame (mem_of_mem_tail member)
  | outside _ _ stack =>
    rw [stack]
    exact onTop

theorem own_of_move {move : Move α κ} (moves : state.move capacity move = some after)
    (noStart : ∀ own, move ≠ .begin (.start own)) {own : κ} (member : .own own ∈ after.stack) :
    .own own ∈ state.stack := by
  cases moveEffect_move moves with
  | owner stacked notOwn effect =>
    obtain ⟨next, restacked, tops⟩ := effect.stack
    rw [restacked] at member
    rcases mem_append.mp member with isNext | inRest
    · cases (tops _ (Option.mem_toList.mp isNext)).1
    · rw [stacked]
      exact mem_cons_of_mem _ inRest
  | @begin operation _ begun =>
    subst begun
    cases operation with
    | start other => exact absurd rfl (noStart other)
    | _ => simpa [Operation.frames, withStack] using member
  | @leaveOwn closes _ _ stacked left =>
    rw [stacked]
    cases closes <;> simp_all [withStack]
  | outside _ _ stack => rwa [← stack]

end CommandChannel

end AsyncFlow
