import AsyncFlow.DescriptorOwnership

/-!
# What the steps of a server do with descriptors

One lemma for each function of the shards: accepting, enqueueing, creating and
closing connections, draining and discarding commands.
-/

namespace AsyncFlow

open List Option

open Table (Tidy)

namespace AcceptState

@[simp]
theorem withShard_shards (state : AcceptState) (index : Nat) (shard : AcceptShard) :
    (state.withShard index shard).shards index = shard :=
  Function.update_self ..

@[simp]
theorem withShard_withShard (state : AcceptState) (index : Nat) (first second : AcceptShard) :
    (state.withShard index first).withShard index second = state.withShard index second := by
  simp [withShard]

theorem withShard_self (state : AcceptState) (index : Nat) :
    state.withShard index (state.shards index) = state := by
  simp [withShard]

end AcceptState

namespace Accept

variable {config : AcceptConfig} {state after : AcceptState} {index fd : Nat}
  {shard : AcceptShard} {listener accepted target : Nat} {rest : List AcceptFrame}

/-! ### Accepting -/

section

variable (inv : Inv config state) (inside : index < config.shardCount)
  (top : (state.shards index).stack = .handleListener listener accepted .idle :: rest)

include inv inside top

theorem inv_taken {routing : Routing} (carries : routing.carries = [state.accepts])
    (honest : (AcceptFrame.handleListener listener accepted routing).Honest config) :
    Inv config (reroute { state with
      accepts := state.accepts + 1
      returned := Function.update state.returned state.accepts true }
      index listener accepted routing rest) := by
  refine inv.take inside ((inv.shards index).withStack top
    [.handleListener listener accepted routing]
    (honestStack_cons.mpr ⟨honest, honestStack_nil⟩)) fun item => ?_
  have counted := holds_withStack top [.handleListener listener accepted routing] item
  simpa [carries, count_cons] using counted

theorem inv_accept (target : Nat) (routable : Bool) :
    Inv config (accept state index target routable listener accepted rest) := by
  have starting : (AcceptFrame.handleListener listener accepted
      (.create state.accepts .starting)).Honest config := .inl rfl
  have creating : (AcceptFrame.handleListener listener accepted
      (.enqueue state.accepts target .creating)).Honest config := .inl rfl
  unfold accept
  split
  · have taken := inv_taken inv inside top rfl starting
    have onTop : ((reroute { state with
        accepts := state.accepts + 1
        returned := Function.update state.returned state.accepts true }
        index listener accepted (.create state.accepts .starting) rest).shards index).stack =
          .handleListener listener accepted (.create state.accepts .starting) :: rest := by
      simp [reroute]
    simpa [refuse, reroute] using inv_refuse taken inside onTop rfl
  · split
    · exact inv_taken inv inside top rfl starting
    · exact inv_taken inv inside top rfl creating

theorem inv_acceptFails : Inv config (acceptFails state index rest) := by
  have left : Inv config (state.withShard index
      { state.shards index with stack := [.callback] ++ rest }) := by
    refine inv.keep inside ((inv.shards index).withStack top [.callback]
      (honestStack_cons.mpr ⟨trivial, honestStack_nil⟩)) fun item => ?_
    simpa using holds_withStack top [.callback] item
  obtain ⟨unknown, unreported⟩ := left.future state.accepts le_rfl
  have counted : Inv config { state.withShard index
      { state.shards index with stack := [.callback] ++ rest } with
      accepts := state.accepts + 1 } :=
    { left with future := fun call later => left.future call (Nat.le_of_succ_le later) }
  refine counted.report (Nat.lt_succ_self _) ?_ unreported
  have balance := left.custody.balance state.accepts
  rw [unknown] at balance
  exact Nat.eq_zero_of_add_eq_zero_left balance

end

/-! ### Enqueueing -/

theorem inv_withActive (inv : Inv config state) (inside : target < config.shardCount)
    (count : Nat) : Inv config (state.withShard target
      { state.shards target with activeEnqueues := count }) :=
  inv.keep inside ⟨(inv.shards target).tidy, (inv.shards target).honest⟩ fun _ => rfl

theorem stack_withActive (state : AcceptState) (target count index : Nat) : ((state.withShard target
      { state.shards target with activeEnqueues := count }).shards index).stack =
        (state.shards index).stack := by
  by_cases same : index = target
  · subst same
    simp
  · simp [AcceptState.withShard, same]

def withCommand (shard : AcceptShard) (command : AdoptCommand) : AcceptShard :=
  { shard with commands := shard.commands ++ [command] }

theorem holds_withCommand (shard : AcceptShard) (command : AdoptCommand) (item : Nat) :
    (withCommand shard command).holds item =
      shard.holds item + if command.fd = item then 1 else 0 := by
  have connections : (withCommand shard command).connectionsWith item =
    shard.connectionsWith item := rfl
  unfold AcceptShard.holds
  rw [connections]
  simp only [withCommand, map_append, map_cons, map_nil, count_append, count_singleton, beq_iff_eq]
  omega

theorem inv_pushed (inv : Inv config state) (inside : index < config.shardCount)
    (top : (state.shards index).stack =
      .handleListener listener accepted (.enqueue fd target .pushing) :: rest)
    (isTarget : target < config.shardCount) :
    Inv config (reroute (state.withShard target (withCommand (state.shards target) ⟨listener, fd⟩))
      index listener accepted (.enqueue fd target (.leaving true)) rest) := by
  have targetInv := inv.shards target
  have pushed : ShardInv config (withCommand (state.shards target) ⟨listener, fd⟩) :=
    ⟨targetInv.tidy, targetInv.honest⟩
  have pushedTop : ((state.withShard target
      (withCommand (state.shards target) ⟨listener, fd⟩)).shards index).stack =
        .handleListener listener accepted (.enqueue fd target .pushing) :: rest := by
    rw [← top]
    by_cases same : index = target
    · subst same
      simp [withCommand]
    · simp [AcceptState.withShard, same]
  refine inv.pass isTarget inside pushed ((shards_withShard inv pushed target index).withStack
    pushedTop [.handleListener listener accepted (.enqueue fd target (.leaving true))]
    (honestStack_cons.mpr ⟨.inr isTarget, honestStack_nil⟩)) (holds_withCommand _ _) fun item => ?_
  have given := holds_withStack pushedTop
    [.handleListener listener accepted (.enqueue fd target (.leaving true))] item
  simpa [Routing.carries, count_singleton] using given

theorem inv_enqueue (inv : Inv config state) (inside : index < config.shardCount)
    {phase : EnqueuePhase} (top : (state.shards index).stack =
      .handleListener listener accepted (.enqueue fd target phase) :: rest) (succeeds : Bool) :
    Inv config (enqueue config state index succeeds listener accepted fd target rest phase) := by
  have honest := (inv.shards index).honest _ (top ▸ mem_cons_self)
  have isTarget : phase ≠ .creating → target < config.shardCount := fun later =>
    honest.resolve_left later
  cases phase with
  | creating =>
    simp only [enqueue]
    split
    next goes =>
      simp only [Bool.and_eq_true, decide_eq_true_eq] at goes
      exact inv_reroute inv inside top rfl (.inr goes.2)
    · exact inv_refuse inv inside top rfl
  | counting =>
    have counted := inv_withActive inv (isTarget (by simp))
      ((state.shards target).activeEnqueues + 1)
    exact inv_reroute counted inside ((stack_withActive ..).trans top) rfl
      (.inr (isTarget (by simp)))
  | loading =>
    simp only [enqueue]
    split <;> exact inv_reroute inv inside top rfl (.inr (isTarget (by simp)))
  | pushing =>
    simp only [enqueue]
    split
    · exact inv_pushed inv inside top (isTarget (by simp))
    · exact inv_reroute inv inside top rfl (.inr (isTarget (by simp)))
  | leaving pushed =>
    have counted := inv_withActive inv (isTarget (by simp))
      ((state.shards target).activeEnqueues - 1)
    have sameTop := (stack_withActive state target
      ((state.shards target).activeEnqueues - 1) index).trans top
    simp only [enqueue]
    cases pushed with
    | true => exact inv_proceed counted inside sameTop rfl
    | false => exact inv_refuse counted inside sameTop rfl

/-! ### Creating connections -/

inductive Creates (state : AcceptState) (index fd : Nat) :
    CreateOutcome → AcceptState × CreatePhase → Prop
  | failed {outcome : CreateOutcome} {slots : TableState} (tidy : Tidy slots)
      (same : ∀ item, ((state.shards index).withSlots slots).connectionsWith item =
        (state.shards index).connectionsWith item) (fails : outcome ≠ .created) :
      Creates state index fd outcome (((state.withShard index
        ((state.shards index).withSlots slots)).closeFd fd).reportError fd, .failed)
  | refused {outcome : CreateOutcome} {slots : TableState} {fds : Nat → Nat}
      {slot : ConnectionSlot} (tidy : Tidy slots)
      (same : ∀ item, ((state.shards index).withConnections slots fds).connectionsWith item =
        (state.shards index).connectionsWith item) (fails : outcome ≠ .created) :
      Creates state index fd outcome ((state.withShard index
        ((state.shards index).withConnections slots fds)).closeFd fd, .refused slot)
  | accepted {slots : TableState} {fds : Nat → Nat} (tidy : Tidy slots)
      (stores : ∀ item, ((state.shards index).withConnections slots fds).connectionsWith item =
        (state.shards index).connectionsWith item + if fd = item then 1 else 0) :
      Creates state index fd .created (state.withShard index
        ((state.shards index).withConnections slots fds), .accepted)

variable {outcome : CreateOutcome}

theorem creates_createConnection (tidy : Tidy (state.shards index).slots)
    {result : AcceptState × CreatePhase}
    (creates : createConnection state index fd outcome = some result) :
    Creates state index fd outcome result := by
  cases outcome with
  | noSlot =>
    obtain ⟨-, creates⟩ := ite_none_right_eq_some.mp creates
    cases creates
    have failed : Creates state index fd .noSlot (((state.withShard index
        (state.shards index)).closeFd fd).reportError fd, .failed) :=
      .failed tidy (fun _ => rfl) (by simp)
    rwa [state.withShard_self] at failed
  | noMemory =>
    obtain ⟨acquiring, acquires, creates⟩ := bind_eq_some_iff.mp creates
    obtain ⟨slots, fails, rfl⟩ := map_eq_some_iff.mp creates
    obtain ⟨tidyAfter, same⟩ := Table.tidy_of_createFails tidy acquires fails
    exact .failed tidyAfter (connectionsWith_of_openCount same) (by simp)
  | noChannel =>
    obtain ⟨⟨stored, slot⟩, storing, creates⟩ := bind_eq_some_iff.mp creates
    obtain ⟨slots, closes, rfl⟩ := map_eq_some_iff.mp creates
    have stores := stores_storeConnection tidy storing
    obtain ⟨_, fds, isStored⟩ := stores.same
    obtain ⟨connection, occupied, isFd⟩ := stores.occupied
    have closed := connectionsWith_close stores.tidy occupied closes
    have counted := stores.counted
    subst isStored
    refine .refused (stores.tidy.step closes (by simp)) (fun item => ?_) (by simp)
    have one := closed item
    rw [isFd, counted item] at one
    exact Nat.add_right_cancel one
  | created =>
    obtain ⟨⟨stored, slot⟩, storing, rfl⟩ := map_eq_some_iff.mp creates
    have stores := stores_storeConnection tidy storing
    obtain ⟨_, fds, isStored⟩ := stores.same
    have counted := stores.counted
    have tidyAfter := stores.tidy
    subst isStored
    exact .accepted tidyAfter counted

def createdShard (shard : AcceptShard) (slots : TableState) (fds : Nat → Nat)
    (stack : List AcceptFrame) : AcceptShard :=
  { shard with slots := slots, fds := fds, stack := stack }

theorem holds_createdShard (shard : AcceptShard) (slots : TableState) (fds : Nat → Nat)
    (stack : List AcceptFrame) (item : Nat) : (createdShard shard slots fds stack).holds item +
        (shard.stack.flatMap AcceptFrame.carries).count item + shard.connectionsWith item =
      shard.holds item + (stack.flatMap AcceptFrame.carries).count item +
        (shard.withConnections slots fds).connectionsWith item := by
  have connections : (createdShard shard slots fds stack).connectionsWith item =
    (shard.withConnections slots fds).connectionsWith item := rfl
  unfold AcceptShard.holds
  rw [connections]
  simp only [createdShard]
  omega

variable {phase : CreatePhase} {created : AcceptState}

theorem Creates.phase_of_created (creates : Creates state index fd .created (created, phase)) :
    phase = .accepted := by
  cases creates with
  | failed _ _ fails => exact absurd rfl fails
  | refused _ _ fails => exact absurd rfl fails
  | accepted => rfl

theorem createConnection_phase (creates : Creates state index fd outcome (created, phase)) :
    phase ≠ .starting := by
  cases creates <;> simp

theorem inv_create (inv : Inv config state) (inside : index < config.shardCount)
    {frame next : AcceptFrame} (top : (state.shards index).stack = frame :: rest)
    (gives : frame.carries = fd :: next.carries) (honest : next.Honest config)
    (creates : Creates state index fd outcome (created, phase)) :
    Inv config (created.withShard index
      { created.shards index with stack := .callback :: next :: rest }) := by
  have stackHonest : HonestStack config (.callback :: next :: rest) :=
    ((inv.shards index).withStack top [.callback, next] (honestStack_cons.mpr
      ⟨trivial, honestStack_cons.mpr ⟨honest, honestStack_nil⟩⟩)).honest
  have counted : ∀ slots fds item,
      (createdShard (state.shards index) slots fds (.callback :: next :: rest)).holds item +
        (if fd = item then 1 else 0) + (state.shards index).connectionsWith item =
          (state.shards index).holds item +
            ((state.shards index).withConnections slots fds).connectionsWith item := by
    intro slots fds item
    have created := holds_createdShard (state.shards index) slots fds (.callback :: next :: rest) item
    simp only [top, gives, flatMap_cons, cons_append, count_cons, beq_iff_eq,
      AcceptFrame.carries_callback, nil_append] at created
    omega
  cases creates with
  | @failed _ slots tidy same _ =>
    have shardInv : ShardInv config (createdShard (state.shards index) slots
      (state.shards index).fds (.callback :: next :: rest)) := ⟨tidy, stackHonest⟩
    have closed := inv.closeAndReport inside shardInv fun item => by
      have created := counted slots (state.shards index).fds item
      have unchanged : ((state.shards index).withConnections slots
        (state.shards index).fds).connectionsWith item = _ := same item
      rw [unchanged] at created
      exact Nat.add_right_cancel created
    simpa [AcceptState.reportError, AcceptState.closeFd, AcceptState.withShard, createdShard,
      AcceptShard.withSlots] using closed
  | @refused _ slots fds _ tidy same _ =>
    have shardInv : ShardInv config (createdShard (state.shards index) slots fds
      (.callback :: next :: rest)) := ⟨tidy, stackHonest⟩
    have closed := inv.close inside shardInv fun item => by
      have created := counted slots fds item
      rw [same item] at created
      exact Nat.add_right_cancel created
    simpa [AcceptState.closeFd, AcceptState.withShard, createdShard,
      AcceptShard.withConnections] using closed
  | @accepted slots fds tidy stores =>
    have shardInv : ShardInv config (createdShard (state.shards index) slots fds
      (.callback :: next :: rest)) := ⟨tidy, stackHonest⟩
    have kept := inv.keep inside shardInv fun item => by
      have created := counted slots fds item
      rw [stores item] at created
      omega
    simpa [createdShard, AcceptShard.withConnections] using kept

end Accept

end AsyncFlow
