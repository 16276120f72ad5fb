import AsyncFlow.ClientStops

/-!
# The steps of a client

Every step is a call, a shard that goes on, a report that is lost, or one that the
control thread handles.  Each keeps the accounts and the awaited stops.
-/

namespace AsyncFlow.Client

open ClientState List ClientShard

variable {config : ServerConfig} {state after : ClientState} {action : Action} {index : Nat}
  {shard : ClientShard} {result : ClientResult}

inductive ShardMove (state : ClientState) (index : Nat) : ClientShard → Prop
  | runConnect {control : ConnectControl} {rest : List ClientTask} (outcome : ClientShard.Outcome)
      (next : (state.shards index).tasks = .connect control :: rest)
      (allowed : state.mustFail control = true → outcome = .ends false) : ShardMove state index
        (({ state.shards index with tasks := rest } : ClientShard).runConnect control outcome)
  | resume {control : ConnectControl} (outcome : ClientShard.Outcome)
      (waits : control ∈ (state.shards index).connecting)
      (allowed : state.mustFail control = true → outcome = .ends false) : ShardMove state index
        (({ state.shards index with
            connecting := (state.shards index).connecting.erase control } :
          ClientShard).runConnect control outcome)
  | runStop {pending : List ConnectControl} {rest : List ClientTask}
      (next : (state.shards index).tasks = .stop pending :: rest) : ShardMove state index
        (({ state.shards index with tasks := rest } : ClientShard).runStop pending)
  | close (control : ConnectControl) : ShardMove state index { state.shards index with
        connections := (state.shards index).connections.erase control }
  | report {result : ClientResult} {rest : List ClientResult}
      (next : (state.shards index).outcomes = result :: rest) :
      ShardMove state index { state.shards index with
        outcomes := rest, results := (state.shards index).results ++ [result] }

inductive Takes (before : ClientShard) (result : ClientResult) : ClientShard → Prop
  | outcome {rest : List ClientResult} (next : before.outcomes = result :: rest) :
      Takes before result { before with outcomes := rest }
  | result {rest : List ClientResult} (next : before.results = result :: rest) :
      Takes before result { before with results := rest }

inductive StepCase (config : ServerConfig) (state : ClientState) : Action → ClientState → Prop
  | connect (connecting : ConnectConfig) (env : ClientEnv) :
      StepCase config state (.connect connecting env) (state.connect config env connecting).2
  | stop (env : ClientEnv) : StepCase config state (.stop env) (state.stop config env).2
  | move {action : Action} {index : Nat} {shard : ClientShard}
      (moves : ShardMove state index shard) :
      StepCase config state action (state.withShard index shard)
  | lose {index : Nat} {result : ClientResult} {rest : List ClientResult}
      (next : (state.shards index).outcomes = result :: rest)
      (elsewhere : index ≠ config.controlThread) : StepCase config state (.complete index false)
        (state.withShard index { state.shards index with outcomes := rest })
  | handle {action : Action} {index : Nat} {result : ClientResult} {shard : ClientShard}
      (takes : Takes (state.shards index) result shard) :
      StepCase config state action ((state.withShard index shard).handleResult config result)

theorem step_cases (steps : step config state action = some after) :
    StepCase config state action after := by
  cases action <;> simp only [step] at steps <;> (try split at steps) <;> try contradiction
  case connect connecting env =>
    cases steps
    exact .connect connecting env
  case stop env =>
    cases steps
    exact .stop env
  case h_1 next =>
    cases steps
    exact .handle (.result next)
  case h_1 outcome _ task tasks next =>
    split at steps
    · obtain ⟨allowed, ⟨⟩⟩ := Option.ite_none_left_eq_some.mp steps
      refine .move (.runConnect outcome next fun must => ?_)
      simpa [must] using allowed
    · cases steps
      exact .move (.runStop next)
  case resume.isTrue index control outcome guard =>
    cases steps
    simp only [Bool.and_eq_true, decide_eq_true_eq, Bool.not_eq_true'] at guard
    refine .move (.resume outcome guard.1 fun must => ?_)
    simpa [must] using guard.2
  case close.isTrue index control _ =>
    cases steps
    exact .move (.close control)
  case h_1 accepted _ result outcomes next =>
    cases steps
    rw [ClientState.complete]
    split
    · exact .handle (.outcome next)
    next elsewhere =>
      cases accepted with
      | true =>
        rw [if_pos rfl, withShard_withShard, withShard_self]
        exact .move (.report next)
      | false => exact .lose next elsewhere

theorem ShardMove.goes (moves : ShardMove state index shard) : (state.shards index).Goes shard := by
  cases moves with
  | runConnect outcome next => exact goes_runTask next outcome
  | resume outcome waits => exact goes_resume waits outcome
  | runStop next => exact goes_runStop next
  | close control => exact goes_close
  | report next => exact goes_reports (by simp +arith [next, count_cons])

theorem stops_runConnect (control : ConnectControl) (outcome : ClientShard.Outcome) :
    (shard.runConnect control outcome).stops = shard.stops := by
  cases outcome with
  | waits => rfl
  | ends connected =>
    simp [stops, runConnect, count_append]

theorem ShardMove.stops (moves : ShardMove state index shard) :
    shard.stops = (state.shards index).stops := by
  cases moves with
  | runConnect outcome next =>
    rw [stops_runConnect]
    simp [stops, ClientTask.isStop, next]
  | resume outcome waits => exact stops_runConnect ..
  | runStop next =>
    simp only [stops, ClientShard.runStop, ClientTask.isStop, next,
      countP_cons, if_true, count_append, count_singleton_self]
    omega
  | close control => rfl
  | report next =>
    simp only [stops, next, count_cons, count_append, count_nil]
    omega

variable {before : ClientShard}

theorem Takes.goes (takes : Takes before result shard) : before.Goes shard := by
  cases takes with
  | outcome next | result next => exact goes_reports (by simp [next, count_cons])

theorem Takes.connections (takes : Takes before result shard) :
    shard.connections = before.connections := by
  cases takes <;> rfl

theorem Takes.stops (takes : Takes before result shard) :
    shard.stops + (if result = .stop then 1 else 0) = before.stops := by
  cases takes with
  | outcome next | result next =>
    simp only [stops, next, count_cons, beq_iff_eq]
    omega

theorem Takes.reports {control : ConnectControl} {connected : Bool}
    (takes : Takes before (.connect control connected) shard) :
    shard.reports control connected + 1 = before.reports control connected ∧
      shard.reports control (!connected) = before.reports control (!connected) ∧
      shard.waiting control = before.waiting control := by
  cases takes with
  | outcome next =>
    cases connected <;>
    simp [reports, waiting, next, Nat.add_right_comm]
  | result next =>
    cases connected <;>
    simp [reports, waiting, next, Nat.add_assoc]

/-! ### The accounts -/

theorem accounts_handleConnect {control : ConnectControl} {connected : Bool}
    (accounts : Accounts config state)
    (takes : Takes (state.shards index) (.connect control connected) shard) : Accounts config
      ((state.withShard index shard).handleConnectResult config control connected) := by
  obtain ⟨taken, others, waiting⟩ := takes.reports
  have single := accounts.single index control
  have counts : (state.shards index).flights control = shard.flights control + 1 := by
    simp only [flights, undone]
    cases connected <;> simp only [Bool.not_true, Bool.not_false] at others <;> omega
  have kept : control ∈ (state.shards index).kept :=
    mem_kept_of_flights (by omega)
  obtain ⟨isHere, -, -⟩ := accounts.placed index control kept
  subst isHere
  refine (accounts.goes takes.goes).handleConnectResult
    (fun owed => accounts.known control owed kept) ?_ (fun present => ?_)
  · rw [withShard_self]
    omega
  · rw [withShard_self, takes.connections] at present
    have isDone := (accounts.made _ control present).2
    cases connected with
    | true => rfl
    | false =>
      rw [undone] at isDone
      omega

theorem accounts_step (accounts : Accounts config state)
    (steps : step config state action = some after) : Accounts config after := by
  cases step_cases steps with
  | connect connecting env => exact accounts.connect env connecting
  | stop env => exact accounts.stop env
  | move moves => exact accounts.goes moves.goes
  | lose next elsewhere => exact accounts.goes (Takes.outcome next).goes
  | @handle action index result shard takes =>
    cases result with
    | connect control connected => exact accounts_handleConnect accounts takes
    | stop => exact (accounts.goes takes.goes).handleStopResult

/-! ### The awaited stops -/

variable {lossless : Prop} {awaited : List Nat}

theorem handleConnectResult_frame (config : ServerConfig) (state : ClientState)
    (control : ConnectControl) (connected : Bool) :
    (state.handleConnectResult config control connected).stopping = state.stopping ∧
      (state.handleConnectResult config control connected).pendingStopShards =
        state.pendingStopShards ∧
      (state.handleConnectResult config control connected).recent = state.recent ∧
      (state.handleConnectResult config control connected).shards = state.shards := by
  rw [handleConnectResult]
  split <;> exact ⟨rfl, rfl, rfl, rfl⟩

theorem awaits_connect (awaits : Awaits config lossless state awaited) (env : ClientEnv)
    (connecting : ConnectConfig) :
    Awaits config lossless (state.connect config env connecting).2 awaited := by
  obtain same | isRefused | ⟨control, isAccepted⟩ := connect_cases config env state connecting
  · rwa [same]
  · rw [isRefused.eq]
    exact awaits.keep rfl rfl fun _ => rfl
  · rw [isAccepted.eq]
    refine (awaits.withShard ?_).keep rfl rfl fun _ => rfl
    exact stops_append (.connect control)

theorem awaits_stop (awaits : Awaits config lossless state awaited) (env : ClientEnv)
    (memory : ¬ (env.collectFails = true ∧ env.resizeFails = true) ∨ ¬ lossless) :
    ∃ awaited, Awaits config lossless (state.stop config env).2 awaited := by
  have stopped := stop_cases config env state
  generalize state.stop config env = outcome at stopped ⊢
  cases stopped with
  | refused => exact ⟨awaited, awaits⟩
  | idle going =>
    have none := awaits.isOver going
    subst none
    rw [handleStopResult_of_last rfl rfl]
    exact ⟨[], nodup_nil, awaits.inside, awaits.stops,
      fun stopping => (by cases stopping), fun _ => rfl⟩
  | stuck going running shards fails =>
    have none := awaits.isOver going
    subst none
    refine ⟨[], nodup_nil, awaits.inside, awaits.stops,
      fun _ => ⟨shards, Nat.zero_le _, fun isLossless => ?_⟩, fun _ => rfl⟩
    exact absurd isLossless (memory.resolve_left (not_not_intro fails))
  | scheduled going running shards =>
    have none := awaits.isOver going
    subst none
    have scheduling : Scheduling config (state.beginStop config env config.threadCount)
        (List.range config.threadCount) [] := by
      refine ⟨rfl, ?_, ?_, awaits.stops, ?_, shards⟩
      · rw [append_nil]
        exact nodup_range
      · rw [append_nil]
        exact fun _ => mem_range.mp
      · rw [length_range]
        rfl
    exact awaits_scheduleStops scheduling

end AsyncFlow.Client
