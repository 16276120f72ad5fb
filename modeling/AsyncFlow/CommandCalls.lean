import AsyncFlow.CommandLedger

/-!
# Calls of `enqueue`

What each access of a thread inside `enqueue` does, and that it keeps the inventory
of the commands.
-/

namespace AsyncFlow

open Function List

namespace CommandChannel

variable {α κ : Type*} {capacity : Nat} {state after : CommandChannel α κ} {producer : Nat}

inductive ProducerStep (capacity : Nat) (state : CommandChannel α κ) (producer : Nat) :
    EnqueuePc α → CommandChannel α κ → Prop
  | counts {id : Nat} {command : α} : ProducerStep capacity state producer (.counting id command)
        { state.withProducer producer (.loading id command) with
          activeEnqueues := state.activeEnqueues + 1 }
  | enters {id : Nat} {command : α} (accepting : state.acceptingCommands = true) :
      ProducerStep capacity state producer (.loading id command)
        (state.withProducer producer (.pushing id command))
  | sealed {id : Nat} {command : α} (refusing : state.acceptingCommands = false) :
      ProducerStep capacity state producer (.loading id command)
        (state.withProducer producer (.leaving id false))
  | pushes {id : Nat} {command : α} (room : state.commands.length < capacity) :
      ProducerStep capacity state producer (.pushing id command)
        { state.withProducer producer (.publishing id) with
          commands := state.commands ++ [⟨id, command, false⟩]
          pushed := state.pushed ++ [id] }
  | full {id : Nat} {command : α} : ProducerStep capacity state producer (.pushing id command)
        (state.withProducer producer (.leaving id false))
  | publishes {id : Nat} : ProducerStep capacity state producer (.publishing id)
        { state.withProducer producer (.checking id) with
          commands := state.commands.map (publish id) }
  | unopened {id : Nat} (closed : state.wakeFd = none) :
      ProducerStep capacity state producer (.checking id)
        (state.withProducer producer (.leaving id true))
  | finds {id fd : Nat} (wakeFd : state.wakeFd = some fd) :
      ProducerStep capacity state producer (.checking id)
        (state.withProducer producer (.exchanging id fd))
  | loses {id fd : Nat} (pending : state.wakePending = true) :
      ProducerStep capacity state producer (.exchanging id fd)
        (state.withProducer producer (.leaving id true))
  | wins {id fd : Nat} : ProducerStep capacity state producer (.exchanging id fd)
        { state.withProducer producer (.writing id fd) with wakePending := true }
  | unwritten {id fd : Nat} (closed : state.wakeFd = none) :
      ProducerStep capacity state producer (.writing id fd)
        { state.withProducer producer (.leaving id true) with wakePending := false }
  | writes {id fd : Nat} : ProducerStep capacity state producer (.writing id fd)
        { state.withProducer producer (.leaving id true) with eventPending := true }
  | leaves {id : Nat} {pushed : Bool} : ProducerStep capacity state producer (.leaving id pushed)
        { state.withProducer producer .idle with
          activeEnqueues := state.activeEnqueues - 1
          accepted := if pushed then state.accepted ++ [id] else state.accepted }

theorem stepProducer_cases {room : Bool}
    (steps : state.stepProducer capacity producer room = some after) :
    ProducerStep capacity state producer (state.producers producer) after := by
  unfold stepProducer at steps
  cases pc : state.producers producer <;> simp only [pc] at steps
  case leaving =>
    cases steps
    exact .leaves
  all_goals (try split at steps) <;> cases steps
  case counting => exact .counts
  case loading.isTrue accepting => exact .enters accepting
  case loading.isFalse refusing => exact .sealed (Bool.eq_false_iff.mpr refusing)
  case pushing.isTrue fits => exact .pushes (of_decide_eq_true (Bool.and_eq_true_iff.mp fits).2)
  case pushing.isFalse => exact .full
  case publishing => exact .publishes
  case h_1 closed => exact .unopened closed
  case h_2 fd wakeFd => exact .finds wakeFd
  case exchanging.isTrue pending => exact .loses pending
  case exchanging.isFalse => exact .wins
  case h_1 closed => exact .unwritten closed
  case h_2 => exact .writes

theorem Inventory.unpublished_update (inventory : Inventory state) (producer : Nat)
    (pc : EnqueuePc α) (published : ∀ id, state.producers producer ≠ .publishing id)
    (queued : QueuedCommand α) (member : queued ∈ state.commands)
    (isUnpublished : queued.published = false) :
    ∃ thread, update state.producers producer pc thread = .publishing queued.id := by
  obtain ⟨thread, publishing⟩ := inventory.unpublished queued member isUnpublished
  have different : thread ≠ producer := by
    rintro rfl
    exact published _ publishing
  exact ⟨thread, (update_of_ne different _ _).trans publishing⟩

theorem Inventory.producerMoves (inventory : Inventory state) {pc : EnqueuePc α}
    (producers : after.producers = update state.producers producer pc)
    (counted : CountsInside EnqueuePc.counted after.producers after.activeEnqueues)
    (call : pc.call = (state.producers producer).call ∨ pc.call = none)
    (unpushed : pc.unpushed = (state.producers producer).unpushed ∨ pc.unpushed = none)
    (hasPushed : ∀ id, pc.hasPushed = some id → (state.producers producer).hasPushed = some id)
    (published : ∀ id, state.producers producer ≠ .publishing id)
    (kept : after.commands = state.commands ∧ after.stack = state.stack)
    (handled : after.executed = state.executed ∧ after.discarded = state.discarded)
    (issued : after.issued = state.issued) (pushed : after.pushed = state.pushed)
    (accepted : ∀ id ∈ after.accepted, id ∈ state.pushed) : Inventory after := by
  have sameKept : after.kept = state.kept := by
    rw [CommandChannel.kept, hand, kept.1, kept.2]
    rfl
  have unpublished := inventory.unpublished_update producer pc published
  obtain ⟨-, apart, known, balance, once, pushedKnown, wasUnpushed, hadPushed, -, -,
    wasIssued⟩ := inventory
  constructor
  case counted => exact counted
  case unpublished => rwa [producers, kept.1]
  case apart => exact producers ▸ apart.keep call
  case balance => simpa [places, sameKept, handled, pushed] using balance
  case once => exact pushed ▸ once
  case issued => rwa [sameKept, issued]
  case pushedKnown => rwa [pushed, issued]
  case accepted => rwa [pushed]
  case known | unpushed | hasPushed =>
    rw [producers]
    grind [update_apply]

theorem Inventory.call (inventory : Inventory state) {command : α}
    (calls : state.call producer command = some after) : Inventory after := by
  obtain ⟨isIdle, rfl⟩ := call_eq calls
  have unpublished := inventory.unpublished_update producer
    (.counting state.issued.length command) (by simp [isIdle])
  obtain ⟨counted, apart, known, balance, once, pushedKnown, unpushed, hasPushed, accepted,
    -, issued⟩ := inventory
  constructor
  case counted => exact counted.keep (by rw [isIdle]; rfl)
  case unpublished => exact unpublished
  case apart =>
    refine apart.take fun id holds other _ holdsOther => ?_
    cases holds
    exact Nat.lt_irrefl _ (known other _ holdsOther)
  case balance => exact balance
  case once => exact once
  case accepted => exact accepted
  case known | pushedKnown | unpushed | hasPushed =>
    dsimp only [withProducer]
    grind [update_apply, EnqueuePc.call, EnqueuePc.unpushed, EnqueuePc.hasPushed,
      EnqueuePc.call_of_unpushed]
  case issued =>
    intro queued member
    have isIssued := issued queued member
    obtain ⟨inside, -⟩ := List.getElem?_eq_some_iff.mp isIssued
    exact (List.getElem?_append_left inside).trans isIssued

theorem Inventory.pushes (inventory : Inventory state) {id : Nat} {command : α}
    (pc : state.producers producer = .pushing id command) :
    Inventory { state.withProducer producer (.publishing id) with
      commands := state.commands ++ [⟨id, command, false⟩]
      pushed := state.pushed ++ [id] } := by
  obtain ⟨fresh, isIssued⟩ := inventory.unpushed producer id command (by rw [pc]; rfl)
  have alone := fun thread => inventory.apart thread producer id
  have others := inventory.unpublished_update producer (.publishing id) (by simp [pc])
  obtain ⟨counted, apart, known, balance, once, pushedKnown, unpushed, hasPushed, accepted,
    -, issued⟩ := inventory
  constructor
  case counted => exact counted.keep (by rw [pc]; rfl)
  case apart => exact apart.keep (by rw [pc]; exact .inl rfl)
  case balance =>
    intro other
    have balance := balance other
    simp only [places, kept, hand, withProducer, map_append, map_cons, map_nil,
      count_append, count_cons, count_nil] at balance ⊢
    omega
  case once =>
    exact nodup_append'.mpr ⟨once, nodup_singleton _,
      fun other member isNew => fresh (mem_singleton.mp isNew ▸ member)⟩
  case unpublished =>
    intro queued member isUnpublished
    rcases mem_append.mp member with old | isNew
    · exact others queued old isUnpublished
    · obtain rfl := mem_singleton.mp isNew
      exact ⟨producer, update_self _ _ _⟩
  case issued => grind [kept, hand, withProducer]
  case known | pushedKnown | unpushed | hasPushed | accepted =>
    -- a thread with the same command to push would be in the same call
    dsimp only [withProducer]
    grind [update_apply, EnqueuePc.call, EnqueuePc.unpushed, EnqueuePc.hasPushed,
      EnqueuePc.call_of_unpushed]

theorem publish_id (id : Nat) (queued : QueuedCommand α) : (publish id queued).id = queued.id := by
  unfold publish
  split <;> rfl

theorem publish_command (id : Nat) (queued : QueuedCommand α) :
    (publish id queued).command = queued.command := by
  unfold publish
  split <;> rfl

theorem publish_unpublished {id : Nat} {queued : QueuedCommand α}
    (isUnpublished : (publish id queued).published = false) :
    queued.id ≠ id ∧ queued.published = false := by
  unfold publish at isUnpublished
  split at isUnpublished
  · cases isUnpublished
  · rename_i different
    exact ⟨different, isUnpublished⟩

theorem Inventory.publishes (inventory : Inventory state) {id : Nat}
    (pc : state.producers producer = .publishing id) :
    Inventory { state.withProducer producer (.checking id) with
      commands := state.commands.map (publish id) } := by
  obtain ⟨counted, apart, known, balance, once, pushedKnown, unpushed, hasPushed, accepted,
    unpublished, issued⟩ := inventory
  constructor
  case counted => exact counted.keep (by rw [pc]; rfl)
  case apart => exact apart.keep (by rw [pc]; exact .inl rfl)
  case balance =>
    have sameIds : QueuedCommand.id ∘ publish id = (QueuedCommand.id : QueuedCommand α → Nat) :=
      funext (publish_id id)
    simpa only [places, kept, hand, withProducer, map_append, map_map, sameIds] using balance
  case once => exact once
  case pushedKnown => exact pushedKnown
  case accepted => exact accepted
  case known | unpushed | hasPushed =>
    dsimp only [withProducer]
    grind [update_apply, EnqueuePc.call, EnqueuePc.unpushed, EnqueuePc.hasPushed]
  case unpublished =>
    intro queued member isUnpublished
    obtain ⟨old, inQueue, rfl⟩ := mem_map.mp member
    obtain ⟨different, wasUnpublished⟩ := publish_unpublished isUnpublished
    obtain ⟨thread, publishing⟩ := unpublished old inQueue wasUnpublished
    have notProducer : thread ≠ producer := by
      rintro rfl
      rw [pc] at publishing
      exact different (EnqueuePc.publishing.inj publishing).symm
    refine ⟨thread, (update_of_ne notProducer _ _).trans ?_⟩
    rw [publish_id, publishing]
  case issued => grind [kept, hand, withProducer, publish_id, publish_command]

theorem Inventory.stepProducer (inventory : Inventory state) {room : Bool}
    (steps : state.stepProducer capacity producer room = some after) : Inventory after := by
  have moves := stepProducer_cases steps
  generalize pc : state.producers producer = before at moves
  have stays : ∀ {next : EnqueuePc α}, next.counted = before.counted →
      CountsInside EnqueuePc.counted (update state.producers producer next) state.activeEnqueues :=
    fun same => inventory.counted.keep (by rw [pc, same])
  have accepted := inventory.accepted
  cases moves with
  | counts =>
    refine inventory.producerMoves rfl (inventory.counted.enter (by rw [pc]; rfl) rfl)
      ?_ ?_ ?_ ?_ ⟨rfl, rfl⟩ ⟨rfl, rfl⟩ rfl rfl accepted <;> rw [pc] <;>
      simp [EnqueuePc.call, EnqueuePc.unpushed, EnqueuePc.hasPushed]
  | enters | sealed | full | finds | unopened | loses | wins | unwritten | writes =>
    refine inventory.producerMoves rfl (stays rfl)
      ?_ ?_ ?_ ?_ ⟨rfl, rfl⟩ ⟨rfl, rfl⟩ rfl rfl accepted <;> rw [pc] <;>
      simp [EnqueuePc.call, EnqueuePc.unpushed, EnqueuePc.hasPushed]
  | pushes => exact inventory.pushes pc
  | publishes => exact inventory.publishes pc
  | leaves =>
    rename_i id pushed
    refine inventory.producerMoves rfl (inventory.counted.leave (by rw [pc]; rfl) rfl)
      (.inr rfl) (.inr rfl) (fun _ holds => (by cases holds)) ?_ ⟨rfl, rfl⟩ ⟨rfl, rfl⟩ rfl rfl ?_
    · rw [pc]
      exact fun _ same => (by cases same)
    · intro other member
      cases pushed with
      | false => exact accepted other member
      | true =>
        rcases mem_append.mp member with old | isNew
        · exact accepted other old
        · obtain rfl := mem_singleton.mp isNew
          exact inventory.hasPushed producer other (by rw [pc]; rfl)

theorem Inventory.move (inventory : Inventory state) {move : Move α κ}
    (moves : state.move capacity move = some after) : Inventory after := by
  cases move with
  | call producer command => exact inventory.call moves
  | producer producer room => exact inventory.stepProducer moves
  | begin operation => exact inventory.begin moves
  | owner succeeds => exact inventory.stepOwner moves
  | leaveOwn closes => exact inventory.leaveOwn moves
  | sealCommands =>
    cases moves
    exact inventory.ownerMoves ⟨rfl, rfl, rfl, rfl, rfl⟩ rfl rfl rfl rfl

end CommandChannel

end AsyncFlow
