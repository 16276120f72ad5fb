import AsyncFlow.DescriptorSteps

/-!
# Closing, draining and stopping

Closing, reaping, adopting, discarding and stopping: each step closes what it
takes from a holder, once.
-/

namespace AsyncFlow

open List Option AcceptFrame

open Table (Tidy)

namespace Accept

variable {config : AcceptConfig} {state after : AcceptState} {index fd : Nat}
  {shard shard' : AcceptShard} {rest stack : List AcceptFrame} {slots slots' : TableState}

/-! ### Steps that close nothing -/

theorem holds_congr (carries : shard'.stack.flatMap carries = shard.stack.flatMap carries)
    (commands : shard'.commands = shard.commands) (fds : shard'.fds = shard.fds)
    (same : ∀ test, shard'.slots.table.openCount test = shard.slots.table.openCount test)
    (item : Nat) : shard'.holds item = shard.holds item := by
  simp only [AcceptShard.holds, AcceptShard.connectionsWith, carries, commands, fds, same]

structure SameData (shard' shard : AcceptShard) : Prop where
  slots : shard'.slots = shard.slots
  commands : shard'.commands = shard.commands
  fds : shard'.fds = shard.fds

theorem Inv.restack (inv : Inv config state) (inside : index < config.shardCount)
    (same : SameData shard (state.shards index)) (honest : HonestStack config shard.stack)
    (carries : shard.stack.flatMap carries = (state.shards index).stack.flatMap carries) :
    Inv config (state.withShard index shard) :=
  inv.keep inside ⟨same.slots ▸ (inv.shards index).tidy, honest⟩
    (holds_congr carries same.commands same.fds fun test => by rw [same.slots])

theorem Inv.recycle (inv : Inv config state) (inside : index < config.shardCount)
    (tidy : Tidy slots) (same : ∀ test, slots.table.openCount test =
      (state.shards index).slots.table.openCount test) (honest : HonestStack config stack)
    (carries : stack.flatMap carries =
      (state.shards index).stack.flatMap carries) : Inv config (state.withShard index
      { state.shards index with slots := slots, stack := stack }) :=
  inv.keep inside ⟨tidy, honest⟩ (holds_congr carries rfl rfl same)

theorem honest_tail (inv : Inv config state) {frame : AcceptFrame}
    (top : (state.shards index).stack = frame :: rest) : HonestStack config rest :=
  (honestStack_cons.mp (top ▸ (inv.shards index).honest)).2

/-! ### Closing connections -/

theorem inv_closeConnection (inv : Inv config state) (inside : index < config.shardCount)
    {slot : Nat} (honest : HonestStack config stack) (carries : stack.flatMap carries =
      (state.shards index).stack.flatMap carries)
    (closes : closeConnection state index slot stack = some after) : Inv config after := by
  simp only [closeConnection] at closes
  split at closes
  next connection occupied =>
    obtain ⟨slots, steps, rfl⟩ := map_eq_some_iff.mp closes
    have tidy := (inv.shards index).tidy
    have shardInv : ShardInv config (createdShard (state.shards index) slots
        (state.shards index).fds (.callback :: .closeNow ⟨slot, connection.generation⟩ :: stack)) :=
      ⟨tidy.step steps (by simp), honestStack_cons.mpr ⟨trivial,
        honestStack_cons.mpr ⟨trivial, honest⟩⟩⟩
    refine inv.close inside shardInv fun item => ?_
    change (createdShard (state.shards index) slots (state.shards index).fds
      (.callback :: .closeNow ⟨slot, connection.generation⟩ :: stack)).holds item + _ = _
    have counted := holds_createdShard (state.shards index) slots (state.shards index).fds
      (.callback :: .closeNow ⟨slot, connection.generation⟩ :: stack) item
    have closed := connectionsWith_close tidy occupied steps item
    have same : ((state.shards index).withConnections slots
      (state.shards index).fds).connectionsWith item =
        ((state.shards index).withSlots slots).connectionsWith item := rfl
    simp only [flatMap_cons, carries_callback, carries_closeNow,
      nil_append, carries, same] at counted
    omega
  · cases closes

theorem tidy_leaveCreate {phase : CreatePhase} (tidy : Tidy slots)
    (leaves : leaveCreate slots phase = some slots') :
    Tidy slots' ∧ ∀ test, slots'.table.openCount test = slots.table.openCount test := by
  cases phase with
  | starting => cases leaves
  | failed =>
    cases leaves
    exact ⟨tidy, fun _ => rfl⟩
  | refused slot =>
    obtain ⟨retired, retires, reaps⟩ := bind_eq_some_iff.mp leaves
    have retiredTidy := tidy.step retires (by simp)
    refine ⟨retiredTidy.step reaps (by simp), fun test => ?_⟩
    calc slots'.table.openCount test
        = retired.table.openCount test := Table.openCount_of_step retiredTidy.idle reaps (.inl rfl) test
      _ = slots.table.openCount test := Table.openCount_of_step tidy.idle retires (.inr ⟨_, rfl⟩) test
  | accepted =>
    exact ⟨tidy.step leaves (by simp), Table.openCount_of_step tidy.idle leaves (.inl rfl)⟩

theorem inv_resume (inv : Inv config state) (inside : index < config.shardCount)
    {frame : AcceptFrame} (top : (state.shards index).stack = frame :: rest)
    (resumes : resume state index rest frame = some after) : Inv config after := by
  have tidy := (inv.shards index).tidy
  have honest := honestStack_cons.mp (top ▸ (inv.shards index).honest)
  cases frame with
  | handleListener listener accepted routing =>
    cases routing with
    | create fd phase =>
      obtain ⟨slots, leaves, isAfter⟩ := map_eq_some_iff.mp resumes
      obtain ⟨tidyAfter, same⟩ := tidy_leaveCreate tidy leaves
      have left := inv.recycle inside tidyAfter same (inv.shards index).honest rfl
      rcases honest.1 with rfl | rfl
      · cases leaves
      · subst isAfter
        exact inv_proceed left inside (by simpa [AcceptShard.withSlots] using top) rfl
    | idle => cases resumes
    | enqueue => cases resumes
  | drainCommands batch adopting =>
    cases adopting with
    | none => cases resumes
    | some adopted =>
      obtain ⟨fd, phase⟩ := adopted
      obtain ⟨slots, leaves, rfl⟩ := map_eq_some_iff.mp resumes
      obtain ⟨tidyAfter, same⟩ := tidy_leaveCreate tidy leaves
      refine inv.recycle inside tidyAfter same (honestStack_cons.mpr ⟨trivial, honest.2⟩) ?_
      rw [top]
      cases phase with
      | starting => cases leaves
      | failed => rfl
      | refused => rfl
      | accepted => rfl
  | closeNow slot =>
    obtain ⟨slots, retires, rfl⟩ := map_eq_some_iff.mp resumes
    exact inv.recycle inside (tidy.step retires (by simp))
      (Table.openCount_of_step tidy.idle retires (.inr ⟨_, rfl⟩)) honest.2 (by rw [top]; rfl)
  | stopOnOwner => cases resumes
  | callback => cases resumes

/-! ### Draining and discarding commands -/

structure Popped (shard : AcceptShard) (batch : List AdoptCommand) (popped : AcceptShard) :
    Prop where
  commands : shard.commands = batch ++ popped.commands
  same : ∃ left, popped = { shard with commands := left }

variable {batch : List AdoptCommand} {popped : AcceptShard} {count : Nat}

theorem popped_popCommands (pops : popCommands shard count = some (batch, popped)) :
    Popped shard batch popped := by
  obtain ⟨-, pops⟩ := ite_none_right_eq_some.mp pops
  cases pops
  exact ⟨(take_append_drop count shard.commands).symm, _, rfl⟩

theorem Popped.holds (pops : Popped shard batch popped) (stack : List AcceptFrame) (item : Nat) :
    { popped with stack := stack }.holds item + (batch.map AdoptCommand.fd).count item +
        (shard.stack.flatMap carries).count item =
      shard.holds item + (stack.flatMap carries).count item := by
  obtain ⟨commands, left, rfl⟩ := pops
  have connections : { shard with commands := left, stack := stack }.connectionsWith item =
    shard.connectionsWith item := rfl
  simp only [AcceptShard.holds, commands, connections, map_append, count_append]
  omega

theorem inv_pop (inv : Inv config state) (inside : index < config.shardCount)
    (top : (state.shards index).stack = .drainCommands [] none :: rest)
    (pops : Popped (state.shards index) batch popped) : Inv config (state.withShard index
      { popped with stack := .drainCommands batch none :: rest }) := by
  have counted := pops.holds (.drainCommands batch none :: rest)
  obtain ⟨-, left, rfl⟩ := pops
  refine inv.keep inside ⟨(inv.shards index).tidy,
    honestStack_cons.mpr ⟨trivial, honest_tail inv top⟩⟩ fun item => ?_
  have counted := counted item
  simp only [top, flatMap_cons, carries_drainCommands, map_nil, nil_append, count_append] at counted
  exact Nat.add_right_cancel ((Nat.add_assoc _ _ _).symm.trans counted)

theorem inv_adoptFails (inv : Inv config state) (inside : index < config.shardCount)
    {command : AdoptCommand}
    (top : (state.shards index).stack = .drainCommands (command :: batch) none :: rest) :
    Inv config ((state.withShard index { state.shards index with
      stack := .drainCommands batch none :: rest }).closeFd command.fd) := by
  refine inv.close inside ((inv.shards index).withStack top [.drainCommands batch none]
    (honestStack_cons.mpr ⟨trivial, honestStack_nil⟩)) fun item => ?_
  have counted := holds_withStack top [.drainCommands batch none] item
  simp only [carries_drainCommands, map_cons, count_cons, beq_iff_eq,
    flatMap_cons, flatMap_nil, append_nil] at counted
  simp only [cons_append, nil_append] at counted ⊢
  omega

theorem discardCommands_eq (state : AcceptState) (batch : List AdoptCommand) :
    discardCommands state batch = { state with
      closes := fun item => state.closes item + (batch.map AdoptCommand.fd).count item } := by
  induction batch generalizing state with
  | nil => rfl
  | cons command batch ih =>
    have unfolded : discardCommands state (command :: batch) =
      discardCommands (state.closeFd command.fd) batch := rfl
    rw [unfolded, ih, AcceptState.closeFd_eq]
    congr 1
    funext item
    simp only [map_cons, count_cons, count_nil]
    omega

variable {phase : StopPhase}

theorem inv_discardPending (inv : Inv config state) (inside : index < config.shardCount)
    {finished : AcceptShard → AcceptShard}
    (top : (state.shards index).stack = .stopOnOwner phase :: rest)
    (discards : discardPending state index count phase rest finished = some after)
    (finishes : ∀ sealing, Inv config (state.withShard index
      (finished { state.shards index with sealing := sealing }))) : Inv config after := by
  simp only [discardPending] at discards
  split at discards
  · cases discards
    exact finishes _
  · obtain ⟨⟨batch, popped⟩, pops, rfl⟩ := map_eq_some_iff.mp discards
    have popped := popped_popCommands pops
    have counted := popped.holds (.stopOnOwner phase :: rest)
    obtain ⟨-, left, rfl⟩ := popped
    rw [discardCommands_eq]
    have shardInv : ShardInv config { state.shards index with
        commands := left
        stack := .stopOnOwner phase :: rest } :=
      ⟨(inv.shards index).tidy, honestStack_cons.mpr ⟨trivial, honest_tail inv top⟩⟩
    refine inv.settle inside shardInv _ fun item => ?_
    have counted := counted item
    simp only [top, flatMap_cons, carries_stopOnOwner, nil_append] at counted
    exact Nat.add_right_cancel counted

/-! ### Stopping -/

section

variable (inv : Inv config state) (inside : index < config.shardCount)
  (top : (state.shards index).stack = .stopOnOwner phase :: rest)

include inv inside top

theorem inv_atPhase (next : StopPhase) (same : SameData shard (state.shards index)) :
    Inv config (state.withShard index (atPhase shard next rest)) :=
  inv.restack inside ⟨same.slots, same.commands, same.fds⟩
    (honestStack_cons.mpr ⟨trivial, honest_tail inv top⟩) (by rw [top]; rfl)

theorem inv_stopOnOwner (stops : stopOnOwner state index count rest phase = some after)
    : Inv config after := by
  have tidy := (inv.shards index).tidy
  have tail := honest_tail inv top
  cases phase with
  | sealing | resealing =>
    cases stops
    exact inv_atPhase inv inside top _ ⟨rfl, rfl, rfl⟩
  | waiting | waitingAgain =>
    obtain ⟨-, stops⟩ := ite_none_right_eq_some.mp stops
    cases stops
    exact inv_atPhase inv inside top _ ⟨rfl, rfl, rfl⟩
  | discarding | discardingAgain =>
    simp only [stopOnOwner] at stops
    exact inv_discardPending inv inside top stops fun _ =>
      inv_atPhase inv inside top _ ⟨rfl, rfl, rfl⟩
  | sweeping slot =>
    simp only [stopOnOwner] at stops
    split at stops
    · obtain ⟨slots, reaps, rfl⟩ := map_eq_some_iff.mp stops
      exact inv.recycle inside (tidy.step reaps (by simp))
        (Table.openCount_of_step tidy.idle reaps (.inl rfl))
        (honestStack_cons.mpr ⟨trivial, tail⟩) (by rw [top]; rfl)
    · split at stops
      · have honest : HonestStack config (.stopOnOwner (.sweeping (slot + 1)) :: rest) :=
          honestStack_cons.mpr ⟨trivial, tail⟩
        exact inv_closeConnection inv inside honest (by rw [top]; rfl) stops
      · cases stops
        exact inv_atPhase inv inside top _ ⟨rfl, rfl, rfl⟩
  | discardingLast =>
    simp only [stopOnOwner] at stops
    exact inv_discardPending inv inside top stops fun _ =>
      inv.restack inside ⟨rfl, rfl, rfl⟩ tail (by rw [top]; rfl)

end

end Accept

end AsyncFlow
