import AsyncFlow.TcpCommands
import AsyncFlow.UdpCommands

/-!
# Stopping shards and accepting commands again

`stop` of `TcpServer` and of `UdpSocket` seals the commands of its shards,
schedules a stop task for each and, when the runtime refused one, accepts commands
again: the server on every shard, the socket on the shards whose task was refused.
The accepted tasks run meanwhile.
-/

namespace AsyncFlow

open Function Option

/-- The shards on which commands are accepted again after a refused stop task. -/
inductive ResumePolicy
  /-- `TcpServer::stop` -/
  | everyShard
  /-- `publish_remaining_after_failed_stop` of `UdpSocket` -/
  | refusedShards
  deriving DecidableEq

def ResumePolicy.shards (policy : ResumePolicy) (requested refused : List Nat) : List Nat :=
  match policy with
  | .everyShard => requested
  | .refusedShards => refused

/-- Where `stop` is on the control thread. -/
inductive StopPc
  | idle
  /-- `seal_commands_for_shards`: the store for the next shard -/
  | sealing (requested left : List Nat)
  | waiting (requested : List Nat) (shard : Nat) (left : List Nat)
  | scheduling (requested left refused : List Nat)
  | resuming (left : List Nat)
  deriving DecidableEq

structure StoppingShards (α κ : Type*) where
  channels : Nat → CommandChannel α κ
  stopTasks : Nat → Nat
  control : StopPc

namespace CommandStops

open CommandChannel (Move)

variable {α κ : Type*} {policy : ResumePolicy} {capacity : Nat} {state after : StoppingShards α κ}

inductive Action (α κ : Type*)
  | stop (shards : List Nat)
  /-- the next step of `stop`; `accepts` is the answer of the runtime, `fails` says that
  memory is short for the lists of shards -/
  | control (accepts fails : Bool)
  /-- a producer, or the owner with anything but `stop_on_owner` -/
  | shard (index : Nat) (move : Move α κ)
  /-- a start that was refused schedules a stop task -/
  | cleanUp (index : Nat)
  | runStop (index : Nat)

def ofShard : Move α κ → Bool
  | .sealCommands | .begin .stopOnOwner => false
  | _ => true

def withChannel (state : StoppingShards α κ) (index : Nat) (channel : CommandChannel α κ) :
    StoppingShards α κ :=
  { state with channels := update state.channels index channel }

def schedule (state : StoppingShards α κ) (index : Nat) : StoppingShards α κ :=
  { state with stopTasks := update state.stopTasks index (state.stopTasks index + 1) }

def finishScheduling (policy : ResumePolicy) (requested refused : List Nat) (fails : Bool) :
    StopPc :=
  if refused.isEmpty then .idle
  else
    match policy with
    | .everyShard => .resuming requested
    | .refusedShards => if fails then .idle else .resuming refused

def resumeCommands (channel : CommandChannel α κ) : CommandChannel α κ :=
  { channel with acceptingCommands := true }

def stepControl (policy : ResumePolicy) (state : StoppingShards α κ) (accepts fails : Bool) :
    Option (StoppingShards α κ) :=
  match state.control with
  | .idle => none
  | .sealing requested [] =>
      -- `stop_shards` of the socket schedules nothing when memory is short
      if policy = .refusedShards && fails then
        some { state with control := .scheduling requested [] requested }
      else
        some { state with control := .scheduling requested requested [] }
  | .sealing requested (shard :: left) =>
      some { withChannel state shard (state.channels shard).sealCommands with
        control := .waiting requested shard left }
  | .waiting requested shard left =>
      if (state.channels shard).activeEnqueues = 0 then
        some { state with control := .sealing requested left }
      else
        none
  | .scheduling requested [] refused =>
      some { state with control := finishScheduling policy requested refused fails }
  | .scheduling requested (shard :: left) refused =>
      if accepts then
        some { schedule state shard with control := .scheduling requested left refused }
      else
        some { state with control := .scheduling requested left (refused ++ [shard]) }
  | .resuming [] => some { state with control := .idle }
  | .resuming (shard :: left) =>
      some { withChannel state shard (resumeCommands (state.channels shard)) with
        control := .resuming left }

def step (policy : ResumePolicy) (capacity : Nat) (state : StoppingShards α κ) :
    Action α κ → Option (StoppingShards α κ)
  | .stop shards =>
      match state.control with
      | .idle => some { state with control := .sealing shards shards }
      | _ => none
  | .control accepts fails => stepControl policy state accepts fails
  | .shard index move =>
      if ofShard move then
        ((state.channels index).move capacity move).map (withChannel state index)
      else
        none
  | .cleanUp index => some (schedule state index)
  | .runStop index =>
      if state.stopTasks index = 0 then none
      else
        ((state.channels index).begin .stopOnOwner).map fun channel =>
          { withChannel state index channel with
            stopTasks := update state.stopTasks index (state.stopTasks index - 1) }

def initial : StoppingShards α κ where
  channels := fun _ => .fresh
  stopTasks := fun _ => 0
  control := .idle

def system (policy : ResumePolicy) (capacity : Nat) :
    TransitionSystem (StoppingShards α κ) (Action α κ) where
  initial := fun state => state = initial
  step := step policy capacity

/-- The wake channel is open and registered, and the owner is not about to open or to
close it. -/
def staysOpen (channel : CommandChannel α κ) : Bool :=
  channel.wakeFd.isSome && channel.registered &&
    match channel.stack with
    | .opening _ :: _ | .closing _ :: _ => false
    | _ => true

/-- Commands are accepted again only on shards whose wake channel stays open. -/
def resumesOpenShards (state : StoppingShards α κ) : Action α κ → Prop
  | .control _ _ =>
      match state.control with
      | .resuming (shard :: _) => staysOpen (state.channels shard) = true
      | _ => True
  | _ => True

instance (state : StoppingShards α κ) : ∀ action, Decidable (resumesOpenShards state action)
  | .control _ _ =>
      match control : state.control with
      | .resuming (shard :: _) =>
          decidable_of_iff (staysOpen (state.channels shard) = true)
            (by rw [resumesOpenShards, control])
      | .resuming [] | .idle | .sealing _ _ | .waiting _ _ _ | .scheduling _ _ _ =>
          .isTrue (by rw [resumesOpenShards, control]; trivial)
  | .stop _ | .shard _ _ | .cleanUp _ | .runStop _ => .isTrue trivial

structure Sound (channel : CommandChannel α κ) : Prop where
  inventory : channel.Inventory
  guarded : channel.Guarded

variable {channel : CommandChannel α κ}

theorem Sound.move {next : CommandChannel α κ} {move : Move α κ} (sound : Sound channel)
    (moves : channel.move capacity move = some next) : Sound next :=
  ⟨sound.inventory.move moves, sound.guarded.move sound.inventory moves⟩

theorem Sound.sealCommands (sound : Sound channel) : Sound channel.sealCommands :=
  ⟨sound.inventory.ownerMoves ⟨rfl, rfl, rfl, rfl, rfl⟩ rfl rfl rfl rfl, sound.guarded.sealCommands⟩

theorem Sound.resumeCommands (sound : Sound channel) (isOpen : staysOpen channel = true) :
    Sound (resumeCommands channel) := by
  obtain ⟨inventory, guarded⟩ := sound
  simp only [staysOpen, Bool.and_eq_true] at isOpen
  refine ⟨inventory.ownerMoves ⟨rfl, rfl, rfl, rfl, rfl⟩ rfl rfl rfl rfl,
    { guarded with opened := fun _ => isOpen.1, top := fun frame member => ?_ }⟩
  obtain ⟨rest, stacked⟩ := List.head?_eq_some_iff.mp (mem_def.mp member)
  change channel.stack = _ at stacked
  rw [stacked] at isOpen
  cases frame with
  | opening phase | closing phase => cases isOpen.2
  | handlingWake phase | stopping phase | own frame => trivial

section

variable (sound : ∀ index, Sound (state.channels index))

include sound

theorem sound_withChannel {shard : Nat} (isSound : Sound channel) (index : Nat) :
    Sound ((withChannel state shard channel).channels index) :=
  (forall_update_iff _ (p := fun _ channel => Sound channel)).mpr
    ⟨isSound, fun other _ => sound other⟩ index

theorem sound_stepControl {accepts fails : Bool}
    (resumes : resumesOpenShards state (.control accepts fails))
    (steps : stepControl policy state accepts fails = some after) (index : Nat) :
    Sound (after.channels index) := by
  rw [stepControl] at steps
  rw [resumesOpenShards] at resumes
  split at steps
  case h_3 =>
    cases steps
    exact sound_withChannel sound (sound _).sealCommands index
  case h_8 control =>
    cases steps
    rw [control] at resumes
    exact sound_withChannel sound ((sound _).resumeCommands resumes) index
  all_goals
    try split at steps
    all_goals first
      | obtain rfl := Option.some.inj steps; exact sound index
      | cases steps

theorem sound_step {action : Action α κ} (resumes : resumesOpenShards state action)
    (steps : step policy capacity state action = some after) (index : Nat) :
    Sound (after.channels index) := by
  cases action with
  | stop shards =>
    simp only [step] at steps
    split at steps
    · cases steps
      exact sound index
    · cases steps
  | control accepts fails => exact sound_stepControl sound resumes steps index
  | shard shard move =>
    obtain ⟨-, steps⟩ := ite_none_right_eq_some.mp steps
    obtain ⟨channel, moves, rfl⟩ := map_eq_some_iff.mp steps
    exact sound_withChannel sound ((sound shard).move moves) index
  | cleanUp shard =>
    cases steps
    exact sound index
  | runStop shard =>
    simp only [step] at steps
    split at steps
    · cases steps
    · obtain ⟨channel, begins, rfl⟩ := map_eq_some_iff.mp steps
      have moves : (state.channels shard).move capacity (.begin .stopOnOwner) = some channel :=
        begins
      exact sound_withChannel sound ((sound shard).move moves) index

end

/-- When commands are accepted again on shards with an open channel only, a shard that
accepts commands has its wake channel open and registered, and a command in its queue
has a wake-up, a drain in progress, or a producer inside `wake`. -/
theorem accepting_shards_drain
    (reached : (system policy capacity).ReachableUnder resumesOpenShards state) (index : Nat) :
    ((state.channels index).acceptingCommands = true →
      (state.channels index).wakeFd.isSome = true ∧ (state.channels index).registered = true) ∧
    ((state.channels index).commands ≠ [] → (state.channels index).eventPending = true ∨
        (∃ frame ∈ (state.channels index).stack, frame.drains = true) ∨
          ∃ producer, ((state.channels index).producers producer).waking = true) := by
  have sound : ∀ index, Sound (state.channels index) := by
    induction reached with
    | start starts =>
      obtain rfl := starts
      exact fun _ => ⟨CommandChannel.inventory_fresh, CommandChannel.guarded_fresh⟩
    | next reached permitted steps ih => exact sound_step ih permitted steps
  exact ⟨(sound index).guarded.opened, (sound index).guarded.covered⟩

def opens (index : Nat) : List (Action α κ) :=
  [.begin .openChannel, .owner true, .owner true, .owner true].map (.shard index)

def controls (answers : List Bool) : List (Action α κ) :=
  answers.map (.control · false)

theorem accepting_shards_drain_refused : ∃ state : StoppingShards TcpCommand Empty,
      (system .everyShard 4).ReachableUnder resumesOpenShards state ∧
      (state.channels 0).acceptingCommands = true ∧ (state.channels 0).registered = true := by
  obtain ⟨state, reached, accepting⟩ :=
    (system .everyShard 4).exists_reachableUnder resumesOpenShards
    (show (system .everyShard 4).initial (initial : StoppingShards TcpCommand Empty) from rfl)
    (.flatten [opens 0, [.stop [0]], controls [true, true, true, false, true, true]])
    (fun state => (state.channels 0).acceptingCommands = true) (by decide)
  exact ⟨state, reached, accepting, ((accepting_shards_drain reached 0).1 accepting).2⟩

/-- A shard accepts commands without a wake channel, and no call is in progress there. -/
def acceptsClosed (state : StoppingShards α κ) (index : Nat) : Prop :=
  (state.channels index).acceptingCommands = true ∧ (state.channels index).wakeFd = none ∧
    (state.channels index).stack = []

instance (state : StoppingShards α κ) (index : Nat) [DecidableEq α] [DecidableEq κ] :
    Decidable (acceptsClosed state index) :=
  inferInstanceAs (Decidable (_ ∧ _ ∧ _))

/-- The server accepts commands again on a shard whose stop task has already run, because
that of another shard was refused; the socket does so on a shard whose start failed. -/
theorem stop_reopens_closed_shard : (∃ state : StoppingShards TcpCommand Empty,
      (system .everyShard 4).Reachable state ∧ acceptsClosed state 0) ∧
    ∃ state : StoppingShards UdpCommand UdpStart,
      (system .refusedShards 4).Reachable state ∧ acceptsClosed state 1 :=
  ⟨(system .everyShard 4).exists_reachableUnder (fun _ _ => True)
      (show (system .everyShard 4).initial initial from rfl)
      (.flatten [opens 0, opens 1, [.stop [0, 1]], controls (List.replicate 6 true), [.runStop 0],
        .replicate 11 (.shard 0 (.owner true)), controls [false, true, true, true]])
      (acceptsClosed · 0) (by decide +kernel),
    (system .refusedShards 4).exists_reachableUnder (fun _ _ => True)
      (show (system .refusedShards 4).initial initial from rfl)
      (.flatten [.map (.shard 1) [.begin (.start ⟨0⟩), .owner true, .owner true, .owner true,
          .leaveOwn true], .replicate 6 (.shard 1 (.owner true)), [.stop [1]],
        controls [true, true, true, false, true, true]]) (acceptsClosed · 1) (by decide +kernel)⟩

end CommandStops

end AsyncFlow
