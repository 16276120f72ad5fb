import AsyncFlow.CommandChannel
import AsyncFlow.ThreadCount
import Mathlib.Data.List.Count

/-!
# Commands are handled once

Every pushed command is in the queue, in a batch of the owner, or was executed or
discarded, once.  A position of the queue that is not published belongs to a thread
that is about to publish it.
-/

namespace AsyncFlow

open List

namespace EnqueuePc

variable {α : Type*}

def counted : EnqueuePc α → Bool
  | .idle | .counting _ _ => false
  | _ => true

def call : EnqueuePc α → Option Nat
  | .idle => none
  | .counting id _ | .loading id _ | .pushing id _ | .publishing id | .checking id
  | .exchanging id _ | .writing id _ | .leaving id _ => some id

/-- The command that the thread may still push, with the number of its call. -/
def unpushed : EnqueuePc α → Option (Nat × α)
  | .counting id command | .loading id command | .pushing id command => some (id, command)
  | _ => none

def hasPushed : EnqueuePc α → Option Nat
  | .publishing id | .checking id | .exchanging id _ | .writing id _ | .leaving id true => some id
  | _ => none

theorem call_of_unpushed {pc : EnqueuePc α} {id : Nat} {command : α}
    (holds : pc.unpushed = some (id, command)) : pc.call = some id := by
  cases pc <;> simp_all [unpushed, call]

end EnqueuePc

namespace ChannelFrame

variable {α κ : Type*}

def batch : ChannelFrame α κ → List (QueuedCommand α)
  | .handlingWake (.draining (.popping batch)) | .handlingWake (.draining (.running batch))
  | .closing (.discarding (.popping batch)) | .closing (.discarding (.running batch))
  | .stopping (.discarding (.popping batch)) | .stopping (.discarding (.running batch))
  | .stopping (.discardingAgain (.popping batch))
  | .stopping (.discardingAgain (.running batch)) => batch
  | _ => []

end ChannelFrame

namespace CommandLoop

variable {α : Type*}

def batch : CommandLoop α → List (QueuedCommand α)
  | .popping batch | .running batch => batch

end CommandLoop

namespace CommandChannel

variable {α κ : Type*} {capacity : Nat} {state after : CommandChannel α κ}

def hand (state : CommandChannel α κ) : List (QueuedCommand α) :=
  state.stack.flatMap ChannelFrame.batch

/-- The commands that are in the queue or in a batch. -/
def kept (state : CommandChannel α κ) : List (QueuedCommand α) :=
  state.commands ++ state.hand

/-- How often a command is in the queue, in a batch, or was worked off. -/
def places (state : CommandChannel α κ) (id : Nat) : Nat :=
  (state.kept.map QueuedCommand.id).count id + state.executed.count id + state.discarded.count id

structure Inventory (state : CommandChannel α κ) : Prop where
  counted : CountsInside EnqueuePc.counted state.producers state.activeEnqueues
  apart : HeldApart EnqueuePc.call state.producers
  known : ∀ producer id, (state.producers producer).call = some id → id < state.issued.length
  balance : ∀ id, state.places id = state.pushed.count id
  once : state.pushed.Nodup
  pushedKnown : ∀ id ∈ state.pushed, id < state.issued.length
  unpushed : ∀ producer id command, (state.producers producer).unpushed = some (id, command) →
    id ∉ state.pushed ∧ state.issued[id]? = some command
  hasPushed : ∀ producer id, (state.producers producer).hasPushed = some id → id ∈ state.pushed
  accepted : ∀ id ∈ state.accepted, id ∈ state.pushed
  unpublished : ∀ queued ∈ state.commands, queued.published = false →
    ∃ producer, state.producers producer = .publishing queued.id
  issued : ∀ queued ∈ state.kept, state.issued[queued.id]? = some queued.command

theorem inventory_fresh : Inventory (fresh : CommandChannel α κ) where
  counted := .of_none fun _ => rfl
  apart := fun _ _ _ holds => by cases holds
  known := fun _ _ holds => by cases holds
  balance := fun _ => rfl
  once := nodup_nil
  pushedKnown := by simp [fresh]
  unpushed := fun _ _ _ holds => by cases holds
  hasPushed := fun _ _ holds => by cases holds
  accepted := by simp [fresh]
  unpublished := by simp [fresh]
  issued := by simp [fresh, kept, hand]

/-! ### The owner -/

structure SameCalls (state after : CommandChannel α κ) : Prop where
  producers : after.producers = state.producers
  activeEnqueues : after.activeEnqueues = state.activeEnqueues
  issued : after.issued = state.issued
  pushed : after.pushed = state.pushed
  accepted : after.accepted = state.accepted

theorem Inventory.owner (inventory : Inventory state) (same : SameCalls state after)
    (commands : ∀ queued ∈ after.commands, queued ∈ state.commands)
    (kept : ∀ queued ∈ after.kept, queued ∈ state.kept)
    (places : ∀ id, after.places id = state.places id) : Inventory after where
  counted := by
    rw [same.producers, same.activeEnqueues]
    exact inventory.counted
  apart := same.producers ▸ inventory.apart
  known := by
    rw [same.producers, same.issued]
    exact inventory.known
  balance := fun id => by
    rw [places, same.pushed]
    exact inventory.balance id
  once := same.pushed ▸ inventory.once
  pushedKnown := by
    rw [same.pushed, same.issued]
    exact inventory.pushedKnown
  unpushed := by
    rw [same.producers, same.pushed, same.issued]
    exact inventory.unpushed
  hasPushed := by
    rw [same.producers, same.pushed]
    exact inventory.hasPushed
  accepted := by
    rw [same.accepted, same.pushed]
    exact inventory.accepted
  unpublished := fun queued member isUnpublished => by
    rw [same.producers]
    exact inventory.unpublished queued (commands queued member) isUnpublished
  issued := fun queued member => by
    rw [same.issued]
    exact inventory.issued queued (kept queued member)

theorem Inventory.ownerMoves (inventory : Inventory state) (same : SameCalls state after)
    (commands : after.commands = state.commands) (hand : after.hand = state.hand)
    (executed : after.executed = state.executed)
    (discarded : after.discarded = state.discarded) : Inventory after := by
  have kept : after.kept = state.kept := by rw [CommandChannel.kept, commands, hand]; rfl
  refine inventory.owner same (fun queued member => commands ▸ member)
    (fun queued member => kept ▸ member) fun id => ?_
  rw [places, kept, executed, discarded]
  rfl

inductive LoopStep (state : CommandChannel α κ) (fate : Fate)
    (inLoop : CommandLoop α → ChannelFrame α κ) (afterLoop rest : List (ChannelFrame α κ)) :
    CommandLoop α → CommandChannel α κ → Prop
  | takes {batch queue : List (QueuedCommand α)} {queued : QueuedCommand α}
      (commands : state.commands = queued :: queue) (published : queued.published = true) :
      LoopStep state fate inLoop afterLoop rest (.popping batch) { state with
          commands := queue
          stack := inLoop (.popping (batch ++ [queued])) :: rest }
  | fills {batch : List (QueuedCommand α)} :
      LoopStep state fate inLoop afterLoop rest (.popping batch)
        (state.withStack (inLoop (.running batch) :: rest))
  | ends (stuck : ∀ queued queue, state.commands = queued :: queue → queued.published = false) :
      LoopStep state fate inLoop afterLoop rest (.popping []) (state.withStack (afterLoop ++ rest))
  | again : LoopStep state fate inLoop afterLoop rest (.running [])
        (state.withStack (inLoop (.popping []) :: rest))
  | handles {batch : List (QueuedCommand α)} {queued : QueuedCommand α} :
      LoopStep state fate inLoop afterLoop rest (.running (queued :: batch))
        ((state.handle fate queued).withStack (inLoop (.running batch) :: rest))

theorem stepFrameLoop_cases (state : CommandChannel α κ) (fate : Fate) (loop : CommandLoop α)
    (inLoop : CommandLoop α → ChannelFrame α κ) (afterLoop rest : List (ChannelFrame α κ)) :
    LoopStep state fate inLoop afterLoop rest loop
      (state.stepFrameLoop fate loop inLoop afterLoop rest) := by
  have ends : ∀ batch, (batch = [] → ∀ queued queue, state.commands = queued :: queue →
      queued.published = false) → state.stepLoop fate (.popping batch) = (state, endBatch batch) →
      LoopStep state fate inLoop afterLoop rest (.popping batch)
        (state.stepFrameLoop fate (.popping batch) inLoop afterLoop rest) := by
    intro batch stuck returns
    rw [stepFrameLoop, returns]
    cases batch with
    | nil => exact .ends (stuck rfl)
    | cons queued batch => exact .fills
  cases loop with
  | popping batch =>
    cases commands : state.commands with
    | nil =>
      refine ends batch (fun _ _ _ nonempty => ?_) (by rw [stepLoop, commands])
      rw [commands] at nonempty
      cases nonempty
    | cons queued queue =>
      by_cases pops : (queued.published && decide (batch.length < commandBatchSize)) = true
      · rw [stepFrameLoop, stepLoop, commands]
        simp only [pops, if_true]
        exact .takes commands (Bool.and_eq_true_iff.mp pops).1
      · refine ends batch (fun empty other rest same => ?_) ?_
        · obtain ⟨rfl, -⟩ := List.cons.inj (commands.symm.trans same)
          subst empty
          simpa [commandBatchSize] using pops
        · rw [stepLoop, commands]
          exact if_neg pops
  | running batch =>
    cases batch with
    | nil => exact .again
    | cons queued batch => exact .handles

variable {rest : List (ChannelFrame α κ)}

theorem Inventory.stepFrameLoop (inventory : Inventory state) (fate : Fate) {loop : CommandLoop α}
    {inLoop : CommandLoop α → ChannelFrame α κ} {afterLoop : List (ChannelFrame α κ)}
    (stacked : state.stack = inLoop loop :: rest)
    (inLoop_batch : ∀ loop, (inLoop loop).batch = loop.batch)
    (afterLoop_batch : afterLoop.flatMap ChannelFrame.batch = []) :
    Inventory (state.stepFrameLoop fate loop inLoop afterLoop rest) := by
  have hand_eq : state.hand = loop.batch ++ rest.flatMap ChannelFrame.batch := by
    rw [hand, stacked, flatMap_cons, inLoop_batch]
  have moves := stepFrameLoop_cases state fate loop inLoop afterLoop rest
  generalize state.stepFrameLoop fate loop inLoop afterLoop rest = after at moves ⊢
  cases moves with
  | takes commands published =>
    rename_i batch queue queued
    refine inventory.owner ⟨rfl, rfl, rfl, rfl, rfl⟩ ?_ ?_ ?_
    · intro other member
      rw [commands]
      exact mem_cons_of_mem _ member
    · intro other
      simp only [kept, stacked, commands, hand, flatMap_cons, inLoop_batch,
        CommandLoop.batch, mem_append, mem_cons, not_mem_nil, or_false]
      tauto
    · intro id
      simp only [places, kept, stacked, commands, hand, flatMap_cons, inLoop_batch,
        CommandLoop.batch, map_append, map_cons, map_nil, count_append, count_cons, count_nil]
      omega
  | fills | again =>
    refine inventory.ownerMoves ⟨rfl, rfl, rfl, rfl, rfl⟩ rfl ?_ rfl rfl
    rw [hand_eq, hand, withStack, flatMap_cons, inLoop_batch]
    rfl
  | ends stuck =>
    refine inventory.ownerMoves ⟨rfl, rfl, rfl, rfl, rfl⟩ rfl ?_ rfl rfl
    rw [hand_eq, hand, withStack, flatMap_append, afterLoop_batch]
    rfl
  | handles =>
    rename_i batch queued
    refine inventory.owner (by cases fate <;> exact ⟨rfl, rfl, rfl, rfl, rfl⟩)
      (by cases fate <;> exact fun _ member => member) ?_ ?_
    · intro other
      have commands : (state.handle fate queued).commands = state.commands := by
        cases fate <;> rfl
      simp only [kept, stacked, commands, hand, withStack, flatMap_cons, inLoop_batch,
        CommandLoop.batch, mem_append, cons_append, mem_cons]
      tauto
    · intro id
      cases fate <;>
        simp only [places, kept, stacked, handle, hand, withStack, flatMap_cons,
          inLoop_batch, CommandLoop.batch, map_append, cons_append, map_cons,
          count_append, count_cons, count_nil] <;>
        omega

inductive OpenStep (state : CommandChannel α κ) (rest : List (ChannelFrame α κ)) :
    OpenPhase → CommandChannel α κ → Prop
  | found {fd : Nat} (wakeFd : state.wakeFd = some fd) :
      OpenStep state rest .creating (state.withStack (.opening .accepting :: rest))
  | creates (wakeFd : state.wakeFd = none) : OpenStep state rest .creating { state with
          wakeFd := some state.fds
          fds := state.fds + 1
          eventPending := false
          stack := .opening .registering :: rest }
  | fails (wakeFd : state.wakeFd = none) : OpenStep state rest .creating (state.withStack rest)
  | registers : OpenStep state rest .registering
        { state with registered := true, stack := .opening .accepting :: rest }
  | refused : OpenStep state rest .registering
        { state with wakeFd := none, eventPending := false, stack := rest }
  | accepts : OpenStep state rest .accepting { state with acceptingCommands := true, stack := rest }

theorem stepOpening_cases (state : CommandChannel α κ) (rest : List (ChannelFrame α κ))
    (succeeds : Bool) (phase : OpenPhase) :
    OpenStep state rest phase (state.stepOpening rest succeeds phase) := by
  cases phase with
  | creating =>
    cases wakeFd : state.wakeFd with
    | some fd =>
      rw [stepOpening, wakeFd]
      exact .found wakeFd
    | none =>
      rw [stepOpening, wakeFd]
      cases succeeds with
      | true => exact .creates wakeFd
      | false => exact .fails wakeFd
  | registering =>
    cases succeeds with
    | true => exact .registers
    | false => exact .refused
  | accepting => exact .accepts

def loopHandling (fate : Fate) : CommandLoop α → Option (Fate × QueuedCommand α)
  | .running (queued :: _) => some (fate, queued)
  | _ => none

def handling (state : CommandChannel α κ) : Option (Fate × QueuedCommand α) :=
  match state.stack with
  | .handlingWake (.draining loop) :: _ => loopHandling .execute loop
  | .closing (.discarding loop) :: _ | .stopping (.discarding loop) :: _
  | .stopping (.discardingAgain loop) :: _ => loopHandling .discard loop
  | _ => none

def isOwn : ChannelFrame α κ → Bool
  | .own _ => true
  | _ => false

def isOpening : ChannelFrame α κ → Bool
  | .opening _ => true
  | _ => false

/-- What a step of the owner does: the call on top goes through the queue, or goes on or
returns without working off commands. -/
inductive OwnerStep (state after : CommandChannel α κ) : Prop
  | loops {fate : Fate} {loop : CommandLoop α} {inLoop : CommandLoop α → ChannelFrame α κ}
      (next : Option (ChannelFrame α κ)) {rest : List (ChannelFrame α κ)}
      (stacked : state.stack = inLoop loop :: rest)
      (isAfter : after = state.stepFrameLoop fate loop inLoop next.toList rest)
      (handles : state.handling = loopHandling fate loop)
      (inLoop_batch : ∀ loop, (inLoop loop).batch = loop.batch)
      (plain : ∀ loop, isOwn (inLoop loop) = false ∧ isOpening (inLoop loop) = false)
      (follows : ∀ top ∈ next, isOwn top = false ∧ top.batch = [])
  | moves {frame : ChannelFrame α κ} (next : Option (ChannelFrame α κ))
      {rest : List (ChannelFrame α κ)} (stacked : state.stack = frame :: rest)
      (restacked : after.stack = next.toList ++ rest) (same : SameCalls state after)
      (commands : after.commands = state.commands) (executed : after.executed = state.executed)
      (discarded : after.discarded = state.discarded)
      (plain : state.handling = none ∧ isOwn frame = false ∧ frame.batch = [])
      (follows : ∀ top ∈ next, isOwn top = false ∧ top.batch = [] ∧
        (isOpening frame = true → isOpening top = true))

theorem stepOwner_cases {succeeds : Bool} (steps : state.stepOwner succeeds = some after) :
    OwnerStep state after := by
  unfold stepOwner at steps
  split at steps
  case h_1 => cases steps
  case h_6 => cases steps
  all_goals
    rename_i phase rest stacked
    have handles := show state.handling = _ by rw [handling, stacked]
  case h_2 =>
    have moves := stepOpening_cases state rest succeeds phase
    rw [Option.some.inj steps] at moves
    cases moves <;> clear steps
    all_goals first
      | exact .moves (some _) stacked rfl ⟨rfl, rfl, rfl, rfl, rfl⟩ rfl rfl rfl
          ⟨handles, rfl, rfl⟩ (by rintro top ⟨⟩; exact ⟨rfl, rfl, id⟩)
      | exact .moves none stacked rfl ⟨rfl, rfl, rfl, rfl, rfl⟩ rfl rfl rfl ⟨handles, rfl, rfl⟩
          (by simp)
  all_goals cases phase
  case h_3.draining loop =>
    exact .loops none stacked (Option.some.inj steps).symm handles (by rintro (_ | _) <;> rfl)
      (fun _ => ⟨rfl, rfl⟩) (by simp)
  case h_4.discarding loop | h_5.discarding loop | h_5.discardingAgain loop =>
    exact .loops (some _) stacked (Option.some.inj steps).symm handles
      (by rintro (_ | _) <;> rfl) (fun _ => ⟨rfl, rfl⟩) (by rintro top ⟨⟩; exact ⟨rfl, rfl⟩)
  case h_4.waiting | h_5.waiting =>
    obtain ⟨-, ⟨⟩⟩ := Option.ite_none_right_eq_some.mp steps
    exact .moves (some _) stacked rfl ⟨rfl, rfl, rfl, rfl, rfl⟩ rfl rfl rfl ⟨handles, rfl, rfl⟩
      (by rintro top ⟨⟩; exact ⟨rfl, rfl, id⟩)
  case h_4.clearing =>
    cases steps
    exact .moves none stacked rfl ⟨rfl, rfl, rfl, rfl, rfl⟩ rfl rfl rfl ⟨handles, rfl, rfl⟩
      (by simp)
  all_goals
    cases steps
    exact .moves (some _) stacked rfl ⟨rfl, rfl, rfl, rfl, rfl⟩ rfl rfl rfl ⟨handles, rfl, rfl⟩
      (by rintro top ⟨⟩; exact ⟨rfl, rfl, id⟩)

theorem Inventory.stepOwner (inventory : Inventory state) {succeeds : Bool}
    (steps : state.stepOwner succeeds = some after) : Inventory after := by
  cases stepOwner_cases steps with
  | loops next stacked isAfter handles inLoop_batch plain follows =>
    rw [isAfter]
    refine inventory.stepFrameLoop _ stacked inLoop_batch ?_
    cases next with
    | none => rfl
    | some top => simpa using (follows top rfl).2
  | moves next stacked restacked same commands executed discarded plain follows =>
    refine inventory.ownerMoves same commands ?_ executed discarded
    rw [hand, hand, stacked, restacked, flatMap_cons, plain.2.2]
    cases next with
    | none => rfl
    | some top => simp [(follows top rfl).2.1]

theorem begin_eq {operation : Operation κ} (begins : state.begin operation = some after) :
    operation.enabled state = true ∧ after = state.withStack (operation.frames ++ state.stack) := by
  unfold CommandChannel.begin at begins
  split at begins
  · rename_i enabled
    exact ⟨enabled, (Option.some.inj begins).symm⟩
  · cases begins

theorem leaveOwn_eq {closes : Bool} (leaves : state.leaveOwn closes = some after) :
    ∃ own rest, state.stack = .own own :: rest ∧
      after = state.withStack (if closes then .closing .sealing :: rest else rest) := by
  unfold CommandChannel.leaveOwn at leaves
  split at leaves
  · rename_i own rest stacked
    exact ⟨own, rest, stacked, (Option.some.inj leaves).symm⟩
  · cases leaves

theorem call_eq {producer : Nat} {command : α} (calls : state.call producer command = some after) :
    state.producers producer = .idle ∧
      after = { state.withProducer producer (.counting state.issued.length command) with
        issued := state.issued ++ [command] } := by
  unfold CommandChannel.call at calls
  split at calls
  · rename_i isIdle
    exact ⟨isIdle, (Option.some.inj calls).symm⟩
  · cases calls

theorem Inventory.begin (inventory : Inventory state) {operation : Operation κ}
    (begins : state.begin operation = some after) : Inventory after := by
  obtain ⟨-, rfl⟩ := begin_eq begins
  refine inventory.ownerMoves ⟨rfl, rfl, rfl, rfl, rfl⟩ rfl ?_ rfl rfl
  cases operation <;> rfl

theorem Inventory.leaveOwn (inventory : Inventory state) {closes : Bool}
    (leaves : state.leaveOwn closes = some after) : Inventory after := by
  obtain ⟨own, rest, stacked, rfl⟩ := leaveOwn_eq leaves
  refine inventory.ownerMoves ⟨rfl, rfl, rfl, rfl, rfl⟩ rfl ?_ rfl rfl
  rw [hand, hand, stacked]
  cases closes <;> rfl

end CommandChannel

end AsyncFlow
