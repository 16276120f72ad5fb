import AsyncFlow.DescriptorCleanup
import AsyncFlow.TransitionSystem

/-!
# Accepted descriptors are closed once

When `create_connection` fails it closes the descriptor, and `handle_listener`
closes it again because `route_connection` returned false.  A server that is
destroyed with commands in its queues never closes their descriptors.  Apart from
these two steps every descriptor has one holder until it is closed.
-/

namespace AsyncFlow

open Option

namespace Accept

variable {config : AcceptConfig} {state after : AcceptState} {index : Nat}

def listens (shard : AcceptShard) : Bool :=
  match shard.stack with
  | .handleListener _ _ _ :: _ => true
  | _ => false

/-- `create_connection` succeeds when `handle_listener` calls it, and the server is
destroyed with empty queues. -/
def keepsOwnership (config : AcceptConfig) (state : AcceptState) : Action → Prop
  | .create index outcome => listens (state.shards index) = true → outcome = .created
  | .destroy => ∀ index < config.shardCount, (state.shards index).commands = []
  | _ => True

instance (config : AcceptConfig) (state : AcceptState) :
    ∀ action, Decidable (keepsOwnership config state action)
  | .create index outcome =>
    inferInstanceAs (Decidable (listens (state.shards index) = true → outcome = .created))
  | .destroy =>
    inferInstanceAs (Decidable (∀ index < config.shardCount, (state.shards index).commands = []))
  | .listenerEvent .. | .accept .. | .acceptFails .. | .acceptEnds .. | .enqueue ..
  | .wakeEvent .. | .pop .. | .adopt .. | .callbackReturns .. | .resumes .. | .close ..
  | .reap .. | .stop .. | .stopGoesOn .. | .addListener .. | .removeListener ..
  | .sealCommands .. | .resumeCommands .. => isTrue trivial

variable {action : Action}

theorem inv_stepShard (inv : Inv config state) (inside : index < config.shardCount)
    (isShard : action.shard = some index) (allowed : keepsOwnership config state action)
    (steps : stepShard config state index action = some after) : Inv config after := by
  have tidy := (inv.shards index).tidy
  have honest := (inv.shards index).honest
  have pops : ∀ {frame rest}, (state.shards index).stack = frame :: rest → frame.carries = [] →
      Inv config (state.withShard index { state.shards index with stack := rest }) :=
    fun top empty => inv.restack inside ⟨rfl, rfl, rfl⟩ (honest_tail inv top)
      (by rw [top, List.flatMap_cons, empty, List.nil_append])
  cases action <;> simp only [stepShard] at steps <;> (try split at steps) <;> try contradiction
  case listenerEvent.isTrue _ listener hangup enabled =>
    cases steps
    refine inv.restack inside ⟨rfl, rfl, rfl⟩ (honestStack_cons.mpr ⟨?_, honest⟩) ?_
    · split <;> trivial
    · cases hangup <;> rfl
  case wakeEvent.isTrue | stop.isTrue =>
    cases steps
    exact inv.restack inside ⟨rfl, rfl, rfl⟩ (honestStack_cons.mpr ⟨trivial, honest⟩) rfl
  case addListener.isTrue | removeListener.isTrue | sealCommands | resumeCommands =>
    cases steps
    exact inv.restack inside ⟨rfl, rfl, rfl⟩ honest rfl
  case h_1 target routable _ listener accepted rest top =>
    obtain ⟨-, ⟨⟩⟩ := ite_none_right_eq_some.mp steps
    exact inv_accept inv inside top target routable
  case h_1 listener accepted rest top =>
    obtain ⟨-, ⟨⟩⟩ := ite_none_right_eq_some.mp steps
    exact inv_acceptFails inv inside top
  case h_1 listener accepted rest top =>
    cases steps
    exact pops top rfl
  case h_1 own outcome _ listener accepted fd rest top =>
    cases isShard
    obtain ⟨⟨created, phase⟩, creates, rfl⟩ := map_eq_some_iff.mp steps
    have creates := creates_createConnection tidy creates
    obtain rfl : outcome = .created := allowed (by rw [listens, top])
    cases creates.phase_of_created
    have accepted : (AcceptFrame.handleListener listener accepted
      (.create fd .accepted)).Honest config := .inr rfl
    exact inv_create inv inside top rfl accepted creates
  case h_2 own outcome _ batch fd rest top =>
    obtain ⟨⟨created, phase⟩, creates, rfl⟩ := map_eq_some_iff.mp steps
    have creates := creates_createConnection tidy creates
    have gives : (AcceptFrame.drainCommands batch (some (fd, .starting))).carries =
        fd :: (AcceptFrame.drainCommands batch (some (fd, phase))).carries := by
      cases phase with
      | starting => exact absurd rfl (createConnection_phase creates)
      | failed | refused | accepted => rfl
    exact inv_create inv inside top gives trivial creates
  case h_1 succeeds _ listener accepted fd target phase rest top =>
    cases steps
    exact inv_enqueue inv inside top succeeds
  case h_1 count rest top =>
    split at steps
    · cases steps
      exact pops top rfl
    · obtain ⟨⟨batch, popped⟩, takes, rfl⟩ := map_eq_some_iff.mp steps
      exact inv_pop inv inside top (popped_popCommands takes)
  case h_1 command batch rest top =>
    split at steps
    · cases steps
      exact inv.restack inside ⟨rfl, rfl, rfl⟩
        (honestStack_cons.mpr ⟨trivial, honest_tail inv top⟩) (by rw [top]; rfl)
    · cases steps
      exact inv_adoptFails inv inside top
  case h_1 rest top =>
    cases steps
    exact pops top rfl
  case h_1 frame rest top => exact inv_resume inv inside top steps
  case close.isTrue _ slot _ => exact inv_closeConnection inv inside honest rfl steps
  case reap.isTrue =>
    obtain ⟨slots, reaps, rfl⟩ := map_eq_some_iff.mp steps
    exact inv.recycle inside (tidy.step reaps (by simp))
      (Table.openCount_of_step tidy.idle reaps (.inl rfl)) honest rfl
  case h_1 count phase rest top => exact inv_stopOnOwner inv inside top steps

structure Ended (config : AcceptConfig) (state : AcceptState) : Prop where
  custody : Custody state.returned state.closes state.reports (holders config state)
  empty : ∀ fd, holders config state fd = 0
  isOver : state.destroyed = true

theorem holds_new (fd : Nat) : AcceptShard.new.holds fd = 0 := rfl

theorem ended_destroyed (inv : Inv config state)
    (idle : ∀ index < config.shardCount, (state.shards index).stack = [])
    (drained : ∀ index < config.shardCount, (state.shards index).commands = []) :
    Ended config (destroyed config state) := by
  have none : ∀ fd, holders config (destroyed config state) fd = 0 := fun fd =>
    Finset.sum_eq_zero fun index _ => holds_new fd
  refine ⟨inv.custody.move (fun _ => Nat.le_add_right _ _) fun fd => ?_, none, rfl⟩
  have open_ : ∑ index ∈ Finset.range config.shardCount, (state.shards index).connectionsWith fd =
      holders config state fd := by
    refine Finset.sum_congr rfl fun index inside => ?_
    have below := Finset.mem_range.mp inside
    simp [AcceptShard.holds, idle index below, drained index below]
  rw [none]
  simp only [destroyed, open_]
  omega

theorem inv_start (config : AcceptConfig) : Inv config start where
  custody := by
    have none : ∀ fd, holders config start fd = 0 := fun fd =>
      Finset.sum_eq_zero fun index _ => holds_new fd
    refine ⟨fun fd => ?_, fun _ => Nat.zero_le _, fun fd _ => none fd⟩
    rw [none]
    rfl
  future := fun _ _ => ⟨rfl, rfl⟩
  shards := fun _ => ⟨Table.tidy_start, honestStack_nil⟩
  alive := rfl

theorem Action.eq_destroy (none : action.shard = none) : action = .destroy := by
  cases action <;> first | rfl | cases none

theorem step_owns (inv : Inv config state) (allowed : keepsOwnership config state action)
    (steps : step config state action = some after) : Inv config after ∨ Ended config after := by
  simp only [step, inv.alive, Bool.false_eq_true, if_false] at steps
  split at steps
  next index isShard =>
    obtain ⟨inside, steps⟩ := ite_none_right_eq_some.mp steps
    exact .inl (inv_stepShard inv inside isShard allowed steps)
  next noShard =>
    obtain ⟨idle, steps⟩ := ite_none_right_eq_some.mp steps
    cases steps
    cases Action.eq_destroy noShard
    exact .inr (ended_destroyed inv idle allowed)

theorem Ended.not_step (ended : Ended config state) : step config state action ≠ some after := by
  simp [step, ended.isOver]

structure ClosedOnce (config : AcceptConfig) (state : AcceptState) : Prop where
  once : ∀ fd, state.closes fd ≤ 1
  returned : ∀ fd, state.closes fd ≠ 0 → state.returned fd = true
  owned : ∀ fd, state.returned fd = true → state.closes fd = 0 → holders config state fd = 1
  released : ∀ fd, state.closes fd ≠ 0 → holders config state fd = 0
  ended : state.destroyed = true → ∀ fd, state.returned fd = true → state.closes fd = 1
  reported : ∀ call, state.reports call ≤ 1

theorem closedOnce_of_custody
    (custody : Custody state.returned state.closes state.reports (holders config state))
    (ended : state.destroyed = true → ∀ fd, holders config state fd = 0) :
    ClosedOnce config state where
  once := custody.settled_le_one
  returned := fun fd isClosed => by
    by_contra unknown
    have balance := custody.balance fd
    rw [if_neg unknown] at balance
    omega
  owned := fun fd isReturned isOpen => by
    have balance := custody.balance fd
    rw [if_pos isReturned, isOpen] at balance
    omega
  released := fun fd isClosed => by
    have balance := custody.balance fd
    split at balance <;> omega
  ended := fun isOver fd isReturned => by
    have balance := custody.balance fd
    rw [if_pos isReturned, ended isOver fd] at balance
    exact balance
  reported := custody.reportedOnce

/-- When `create_connection` does not fail under `handle_listener` and the server is
destroyed with empty queues, every accepted descriptor is closed once, and every
failure is reported at most once. -/
theorem accepted_descriptors_closed_once (config : AcceptConfig)
    (reached : (system config).ReachableUnder (keepsOwnership config) state) :
    ClosedOnce config state := by
  have owns : Inv config state ∨ Ended config state := by
    induction reached with
    | start starts =>
      cases starts
      exact .inl (inv_start config)
    | next _ permitted steps ih =>
      rcases ih with inv | ended
      · exact step_owns inv permitted steps
      · exact absurd steps ended.not_step
  rcases owns with inv | ended
  · refine closedOnce_of_custody inv.custody fun isOver => ?_
    rw [inv.alive] at isOver
    cases isOver
  · exact closedOnce_of_custody ended.custody fun _ => ended.empty

theorem accepted_descriptors_closed_once_adopted :
    ∃ state, (system ⟨2, 8⟩).ReachableUnder (keepsOwnership ⟨2, 8⟩) state ∧
      (state.destroyed = true ∧ state.returned 0 = true ∧ state.closes 0 = 1) ∧
      ClosedOnce ⟨2, 8⟩ state := by
  obtain ⟨state, reached, observed⟩ := (system ⟨2, 8⟩).exists_reachableUnder
    (keepsOwnership ⟨2, 8⟩) (show (system ⟨2, 8⟩).initial start from rfl)
    [.addListener 0 5, .addListener 1 5, .listenerEvent 0 5 false, .accept 0 1 true,
      .enqueue 0 true, .enqueue 0 true, .enqueue 0 true, .enqueue 0 true, .enqueue 0 true,
      .acceptEnds 0, .wakeEvent 1, .pop 1 1, .adopt 1, .create 1 .created, .callbackReturns 1,
      .resumes 1, .pop 1 0, .stop 1 false, .stopGoesOn 1 0, .stopGoesOn 1 0, .stopGoesOn 1 0,
      .stopGoesOn 1 0, .callbackReturns 1, .resumes 1, .stopGoesOn 1 0, .stopGoesOn 1 0,
      .stopGoesOn 1 0, .stopGoesOn 1 0, .stopGoesOn 1 0, .destroy]
    (fun state => state.destroyed = true ∧ state.returned 0 = true ∧ state.closes 0 = 1) (by decide)
  exact ⟨state, reached, observed, accepted_descriptors_closed_once ⟨2, 8⟩ reached⟩

/-- No slot is found: `create_connection` closes the descriptor and reports the
failure, and so does `handle_listener` after it. -/
theorem failed_create_closes_twice :
    ∃ state, (system ⟨1, 8⟩).Reachable state ∧ state.closes 0 = 2 ∧ state.reports 0 = 2 :=
  (system ⟨1, 8⟩).exists_reachableUnder
    (fun _ _ => True) (show (system ⟨1, 8⟩).initial start from rfl)
    [.addListener 0 5, .listenerEvent 0 5 false, .accept 0 0 true, .create 0 .noSlot,
      .callbackReturns 0, .resumes 0]
    _ (by decide)

end Accept

end AsyncFlow
