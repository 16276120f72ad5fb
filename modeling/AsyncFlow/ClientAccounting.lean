import AsyncFlow.ClientSteps
import AsyncFlow.ServerSystem

/-!
# The accounting of a client

The control thread counts exactly the connects whose outcome it has not seen.  The
client runs as long as a connect since the last stop is in flight or has left a
connection.  A stop is over when its tasks are, if their reports arrive.
-/

namespace AsyncFlow.Client

open ClientState List

variable {config : ServerConfig} {state after : ClientState} {action : Action}
  {lossless : Prop} {awaited : List Nat}

/-- The reports of stop tasks are not refused, and a stop has memory for its lists. -/
def reportsStops (config : ServerConfig) (state : ClientState) : Action → Prop
  | .stop env => (env.collectFails && env.resizeFails) = false
  | .complete index accepted =>
    index = config.controlThread ∨ accepted = true ∨
      (state.shards index).outcomes.head? ≠ some .stop
  | _ => True

instance (config : ServerConfig) (state : ClientState) :
    ∀ action, Decidable (reportsStops config state action)
  | .stop env => inferInstanceAs (Decidable ((env.collectFails && env.resizeFails) = false))
  | .complete index accepted => inferInstanceAs (Decidable (index = config.controlThread ∨
      accepted = true ∨ (state.shards index).outcomes.head? ≠ some .stop))
  | .connect .. | .handleResult _ | .runTask .. | .resume .. | .close .. => .isTrue trivial

theorem awaits_step (awaits : Awaits config lossless state awaited)
    (reports : lossless → reportsStops config state action)
    (steps : step config state action = some after) :
    ∃ awaited, Awaits config lossless after awaited := by
  cases step_cases steps with
  | connect connecting env => exact ⟨awaited, awaits_connect awaits env connecting⟩
  | stop env =>
    refine awaits_stop awaits env ?_
    by_cases isLossless : lossless
    · refine .inl fun fails => ?_
      simp [reportsStops, fails] at reports
      exact reports isLossless
    · exact .inr isLossless
  | move moves => exact ⟨awaited, awaits.withShard moves.stops⟩
  | @lose index result rest next elsewhere =>
    have stops := (Takes.outcome next).stops
    cases result with
    | connect control connected => exact ⟨awaited, awaits.withShard stops⟩
    | stop =>
      refine ⟨awaited.erase index, awaits.lost stops fun isLossless => ?_⟩
      obtain here | accepted | other := reports isLossless
      · exact elsewhere here
      · cases accepted
      · exact other (by rw [next]; rfl)
  | @handle action index result shard takes =>
    cases result with
    | connect control connected =>
      obtain ⟨stopping, pending, -, shards⟩ := handleConnectResult_frame config
        (state.withShard index shard) control connected
      have kept : Awaits config lossless (state.withShard index shard) awaited :=
        awaits.withShard takes.stops
      refine ⟨awaited, kept.keep stopping pending fun _ => ?_⟩
      rw [ClientState.handleResult, shards]
    | stop => exact ⟨awaited.erase index, awaits.handleStopResult takes.stops⟩

theorem accounts_initial (config : ServerConfig) : Accounts config initial where
  counted := rfl
  distinct := nodup_nil
  pending := fun _ absent => absurd absent not_mem_nil
  known := fun _ absent => absurd absent not_mem_nil
  numbered := fun _ absent => absurd absent not_mem_nil
  recentNumbered := fun _ absent => absurd absent not_mem_nil
  placed := fun _ _ absent => absurd absent not_mem_nil
  single := fun _ _ => Nat.zero_le _
  made := fun _ _ absent => absurd absent not_mem_nil
  owed := fun _ absent => absurd absent not_mem_nil
  linked := fun _ absent => absurd absent not_mem_nil
  runs := fun _ left => by simp [initial] at left
  quiet := fun _ => rfl

variable {allowed : ClientState → Action → Prop}

theorem accounts_reachable (reached : (system config).ReachableUnder allowed state) :
    Accounts config state := by
  induction reached with
  | start starts => exact (show _ = initial from starts) ▸ accounts_initial config
  | next _ _ steps ih => exact accounts_step ih steps

theorem awaits_reachable
    (reports : lossless → ∀ state action, allowed state action → reportsStops config state action)
    (reached : (system config).ReachableUnder allowed state) :
    ∃ awaited, Awaits config lossless state awaited := by
  induction reached with
  | start starts =>
    cases (show _ = initial from starts)
    exact ⟨[], nodup_nil, fun _ absent => absurd absent not_mem_nil, fun _ => rfl,
      fun stops => (by cases stops), fun _ => rfl⟩
  | next _ permitted steps ih =>
    obtain ⟨awaited, awaits⟩ := ih
    exact awaits_step awaits (fun isLossless => reports isLossless _ _ permitted) steps

variable {index : Nat}

theorem Accounts.running {control : ConnectControl} (accounts : Accounts config state)
    (recent : control ∈ state.recent) (busy : 0 < (state.shards index).flights control ∨
      control ∈ (state.shards index).connections) : state.running = true := by
  have going : state.stopping = false := by
    by_contra stops
    rw [accounts.quiet (by simpa using stops)] at recent
    exact absurd recent not_mem_nil
  refine accounts.runs going ?_
  obtain flying | present := busy
  · obtain ⟨isHere, -⟩ :=
      accounts.placed index control (ClientShard.mem_kept_of_flights flying)
    exact .inl (ne_nil_of_mem (accounts.owed control recent (isHere ▸ flying)))
  · obtain ⟨⟨isHere, -⟩, -⟩ := accounts.made index control present
    exact (accounts.linked control recent (isHere ▸ present)).imp_left ne_nil_of_mem

/-- The control thread counts the connects whose outcome it has not seen; the client runs
while a connect since the last stop is in flight or its connection is open; and when no
stop task is left, no stop is in progress. -/
theorem client_accounting (reached : (system config).ReachableUnder (reportsStops config) state) :
    state.inflightConnects = state.outstanding.length ∧
    (∀ control ∈ state.recent, ∀ index, 0 < (state.shards index).flights control ∨
      control ∈ (state.shards index).connections → state.running = true) ∧
    ((∀ index, (state.shards index).stops = 0) → state.stopping = false) := by
  have accounts := accounts_reachable reached
  obtain ⟨awaited, awaits⟩ : ∃ awaited, Awaits config True state awaited :=
    awaits_reachable (fun _ _ _ => id) reached
  refine ⟨accounts.counted, fun control recent index busy => Accounts.running accounts recent busy,
    fun none => ?_⟩
  by_contra stops
  obtain ⟨some, -, exactly⟩ := awaits.counted (by simpa using stops)
  obtain ⟨index, isAwaited⟩ := exists_mem_of_length_pos (exactly trivial ▸ some)
  have isThere := awaits.stops index
  rw [none, if_pos isAwaited] at isThere
  cases isThere

def fromTwoShards : ConnectConfig where
  threads := [1, 2]
  remoteEndpoint := ⟨.ipv4, false, 80, true⟩
  localEndpoint := ⟨.ipv4, false, 0, true⟩
  bindLocal := false
  readBudgetBytes := 65536
  readBufferSize := 4096
  outputHighWatermark := 1048576

theorem client_accounting_lost :
    ∃ state, (system Server.threeThreads).ReachableUnder (reportsStops Server.threeThreads) state ∧
      ⟨1, 2⟩ ∈ (state.shards 2).connections ∧ ⟨2, 1⟩ ∈ (state.shards 1).connecting ∧
      state.inflightConnects = 2 ∧ state.inflightConnects = state.outstanding.length ∧
      (∀ control ∈ state.recent, ∀ index, 0 < (state.shards index).flights control ∨
        control ∈ (state.shards index).connections → state.running = true) ∧
      ((∀ index, (state.shards index).stops = 0) → state.stopping = false) := by
  obtain ⟨state, reached, connected, waits, inflight⟩ :=
    (system Server.threeThreads).exists_reachableUnder (reportsStops Server.threeThreads)
    (show (system Server.threeThreads).initial initial from rfl)
    [.connect fromTwoShards .good, .runTask 1 (.ends true), .complete 1 true, .handleResult 1,
      .stop { ClientEnv.good with accepts := fun shard => shard = 1 }, .runTask 1 .waits,
      .complete 1 true, .handleResult 1, .connect fromTwoShards .good, .runTask 2 (.ends true),
      .complete 2 false, .connect fromTwoShards .good, .runTask 1 .waits]
    (fun state => ⟨1, 2⟩ ∈ (state.shards 2).connections ∧ ⟨2, 1⟩ ∈ (state.shards 1).connecting ∧
      state.inflightConnects = 2) (by decide)
  exact ⟨state, reached, connected, waits, inflight, client_accounting reached⟩

/-! ### A stop that is never over -/

structure Stuck (state : ClientState) : Prop where
  stopping : state.stopping = true
  stops : ∀ index, (state.shards index).stops = 0

theorem Stuck.withShard {shard : ClientShard} (stuck : Stuck state)
    (stops : shard.stops = (state.shards index).stops) : Stuck (state.withShard index shard) := by
  refine ⟨stuck.stopping, fun other => ?_⟩
  by_cases same : other = index
  · subst same
    rw [withShard_self, stops, stuck.stops]
  · rw [withShard_of_ne same, stuck.stops]

theorem stuck_step (stuck : Stuck state) (steps : step config state action = some after) :
    Stuck after := by
  cases step_cases steps with
  | connect connecting env =>
    obtain same | isRefused | ⟨control, isAccepted⟩ := connect_cases config env state connecting
    · rwa [same]
    · rw [isRefused.eq]
      exact ⟨stuck.stopping, stuck.stops⟩
    · exact absurd (stuck.stopping.symm.trans isAccepted.going) (by decide)
  | stop env =>
    rw [stop, if_pos stuck.stopping]
    exact stuck
  | move moves => exact stuck.withShard moves.stops
  | lose next elsewhere =>
    have stops := (Takes.outcome next).stops
    rw [stuck.stops] at stops
    exact stuck.withShard ((Nat.eq_zero_of_add_eq_zero_right stops).trans (stuck.stops _).symm)
  | @handle action index result shard takes =>
    have stops := takes.stops
    cases result with
    | connect control connected =>
      obtain ⟨stopping, -, -, shards⟩ := handleConnectResult_frame config
        (state.withShard index shard) control connected
      have kept : Stuck (state.withShard index shard) := stuck.withShard stops
      exact ⟨stopping.trans kept.stopping, fun other => by
        rw [ClientState.handleResult, shards, kept.stops]⟩
    | stop =>
      rw [stuck.stops, if_pos rfl] at stops
      cases stops

theorem stuck_later (stuck : Stuck state)
    (later : ((system config).startingAt state).Reachable after) : Stuck after := by
  induction later with
  | start starts => exact (show _ = state from starts) ▸ stuck
  | next _ _ steps ih => exact stuck_step ih steps

theorem stops_eq_zero (reached : (system config).Reachable state)
    (none : ∀ index < config.threadCount, (state.shards index).stops = 0) :
    (state.shards index).stops = 0 := by
  obtain ⟨awaited, awaits⟩ : ∃ awaited, Awaits config False state awaited :=
    awaits_reachable (fun isLossless => isLossless.elim) reached
  by_cases inside : index < config.threadCount
  · exact none index inside
  · rw [awaits.stops, if_neg fun isAwaited => inside (awaits.inside index isAwaited)]

theorem connect_of_stopping {env : ClientEnv} {connecting : ConnectConfig}
    (stops : state.stopping = true) : (state.connect config env connecting).1 = false := by
  have numbered : state.numbered.stopping = true := stops
  rw [connect]
  split
  · rfl
  · dsimp only
    split
    · rfl
    · rw [activatePendingConnect_of_stopping numbered]
      rfl

/-- The report of a shard is refused: every stop task has finished, and from then on
the client refuses all connects and stops. -/
theorem lost_stop_report_sticks : ∃ state, (system Server.threeThreads).Reachable state ∧
      (∀ index, (state.shards index).stops = 0) ∧ state.stopping = true ∧
      ∀ later, ((system Server.threeThreads).startingAt state).Reachable later →
        (∀ env, (later.stop Server.threeThreads env).1 = false) ∧
        ∀ env connecting, (later.connect Server.threeThreads env connecting).1 = false := by
  obtain ⟨state, reached, stops, finished⟩ :=
    (system Server.threeThreads).exists_reachableUnder (fun _ _ => True)
    (show (system Server.threeThreads).initial initial from rfl)
    [.connect fromTwoShards .good, .runTask 1 (.ends true), .complete 1 true, .handleResult 1,
      .stop .good, .runTask 0 .waits, .runTask 1 .waits, .runTask 2 .waits, .complete 0 true,
      .complete 1 false, .complete 2 true, .handleResult 2]
    (fun state => state.stopping = true ∧ ∀ index ∈ List.range 3, (state.shards index).stops = 0)
    (by decide)
  have stuck : Stuck state := ⟨stops, fun index => stops_eq_zero reached fun index inside =>
    finished index (mem_range.mpr inside)⟩
  refine ⟨state, reached, stuck.stops, stops, fun later goesOn => ?_⟩
  have stillStuck := (stuck_later stuck goesOn).stopping
  exact ⟨fun env => by rw [stop, if_pos stillStuck],
    fun env connecting => connect_of_stopping stillStuck⟩

end AsyncFlow.Client
