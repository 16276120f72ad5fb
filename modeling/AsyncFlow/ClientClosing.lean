import AsyncFlow.ClientAccounting
import AsyncFlow.SettlingQueue

/-!
# The connections of a client that was stopped

A connect that was accepted before the last stop is cancelled before the client
runs again.  So every connection belongs to a connect since the last stop, or has
a stop task before it, if no stop task was refused where there was something to
close.
-/

namespace AsyncFlow.Client

open ClientState SettlingQueue List

variable {config : ServerConfig} {env : ClientEnv} {state after : ClientState}
  {action : Action} {index : Nat} {shard before : ClientShard} {control : ConnectControl}

def Cancels (control : ConnectControl) : ClientTask → Prop
  | .stop pending => control ∈ pending
  | .connect _ => False

structure Closing (state : ClientState) : Prop where
  stale : ∀ index, ∀ control ∉ state.recent, 0 < (state.shards index).waiting control →
    control ∈ (state.shards index).cancelled ∨
      ∃ task ∈ (state.shards index).tasks, Cancels control task
  fresh : ∀ index, ∀ control ∈ (state.shards index).connections,
    control ∈ state.recent ∨ ∃ task ∈ (state.shards index).tasks, task.isStop = true

structure Advances (state : ClientState) (before after : ClientShard) : Prop where
  waiting : ∀ control, after.waiting control ≤ before.waiting control
  cancelled : ∀ control ∈ before.cancelled, control ∈ after.cancelled
  tasks : ∀ task ∈ before.tasks, task ∈ after.tasks ∨ ¬ task.isStop = true ∨
    (∀ control, Cancels control task → control ∈ after.cancelled) ∧ after.connections = []
  made : ∀ control ∈ after.connections, control ∈ before.connections ∨
    0 < before.waiting control ∧ state.mustFail control = false

theorem waiting_runConnect (other : ConnectControl) (outcome : ClientShard.Outcome) :
    (shard.runConnect control outcome).waiting other ≤
      shard.waiting other + [control].count other := by
  cases outcome with
  | waits =>
    simp only [ClientShard.waiting, ClientShard.runConnect, count_append]
    omega
  | ends connected => exact Nat.le_add_right _ _

theorem advances_runConnect {taken : ClientShard} {outcome : ClientShard.Outcome}
    (allowed : state.mustFail control = true → outcome = .ends false)
    (waits : ∀ other, taken.waiting other + [control].count other = before.waiting other)
    (cancelled : taken.cancelled = before.cancelled)
    (connections : taken.connections = before.connections)
    (tasks : ∀ task ∈ before.tasks, task ∈ taken.tasks ∨ ¬ task.isStop = true) :
    Advances state before (taken.runConnect control outcome) := by
  refine ⟨fun other => ?_, fun other isCancelled => ?_, fun task isTask => ?_, fun other made => ?_⟩
  · exact Nat.le_trans (waiting_runConnect other outcome) (Nat.le_of_eq (waits other))
  · cases outcome <;> simpa only [ClientShard.runConnect, cancelled] using isCancelled
  · refine (tasks task isTask).imp (fun stays => ?_) .inl
    cases outcome <;> exact stays
  · cases outcome with
    | waits => exact .inl (connections ▸ made)
    | ends connected =>
      cases connected with
      | false => exact .inl (connections ▸ made)
      | true =>
        obtain old | new := mem_append.mp made
        · exact .inl (connections ▸ old)
        · cases mem_singleton.mp new
          have counted := waits control
          rw [count_singleton_self] at counted
          refine .inr ⟨by omega, Bool.eq_false_iff.mpr fun must => ?_⟩
          cases allowed must

theorem ShardMove.advances (moves : ShardMove state index shard) :
    Advances state (state.shards index) shard := by
  cases moves with
  | @runConnect control rest outcome next allowed =>
    refine advances_runConnect allowed (ClientShard.waiting_pop next) rfl rfl
      (fun task isTask => ?_)
    rw [next] at isTask
    obtain rfl | later := mem_cons.mp isTask
    · exact .inr nofun
    · exact .inl later
  | @resume control outcome waits allowed =>
    exact advances_runConnect allowed (ClientShard.waiting_erase waits) rfl rfl (fun _ => .inl)
  | @runStop pending rest next =>
    refine ⟨fun other => ?_, fun other isCancelled => mem_append_left _ isCancelled,
      fun task isTask => ?_, fun other made => absurd made not_mem_nil⟩
    · simp only [ClientShard.waiting, ClientShard.runStop, next, count_cons]
      omega
    · rw [next] at isTask
      obtain rfl | later := mem_cons.mp isTask
      · exact .inr (.inr ⟨fun other cancels => mem_append_right _ cancels, rfl⟩)
      · exact .inl later
  | close control =>
    exact ⟨fun _ => Nat.le_refl _, fun _ => id, fun _ => .inl,
      fun _ made => .inl (mem_of_mem_erase made)⟩
  | report next =>
    exact ⟨fun _ => Nat.le_refl _, fun _ => id, fun _ => .inl, fun _ => .inl⟩

theorem Takes.advances {result : ClientResult} (takes : Takes before result shard) :
    Advances state before shard := by
  cases takes <;>
  exact ⟨fun _ => Nat.le_refl _, fun _ => id, fun _ => .inl, fun _ => .inl⟩

theorem Cancels.isStop {task : ClientTask} (cancels : Cancels control task) : task.isStop = true := by
  cases task with
  | connect => exact cancels.elim
  | stop => rfl

variable {awaited : List Nat}

theorem not_isStop (awaits : Awaits config False state awaited) (going : state.stopping = false)
    (index : Nat) : ∀ task ∈ (state.shards index).tasks, ¬ task.isStop = true := by
  intro task isTask isStop
  have stops := awaits.stops index
  rw [awaits.isOver going, if_neg not_mem_nil, ClientShard.stops] at stops
  have some : 0 < (state.shards index).tasks.countP ClientTask.isStop :=
    countP_pos_iff.mpr ⟨task, isTask, isStop⟩
  omega

theorem Closing.advances (closing : Closing state)
    (advances : Advances state (state.shards index) shard)
    (new : ∀ control, 0 < (state.shards index).waiting control →
      state.mustFail control = false → control ∈ state.recent) :
    Closing (state.withShard index shard) := by
  refine ⟨fun other control old waits => ?_, fun other control present => ?_⟩
  · by_cases same : other = index
    · subst same
      rw [withShard_self] at waits ⊢
      obtain isCancelled | ⟨task, isTask, cancels⟩ := closing.stale other control old
        (Nat.lt_of_lt_of_le waits (advances.waiting control))
      · exact .inl (advances.cancelled control isCancelled)
      · obtain stays | isOther | ⟨ran, -⟩ := advances.tasks task isTask
        · exact .inr ⟨task, stays, cancels⟩
        · exact absurd cancels.isStop isOther
        · exact .inl (ran control cancels)
    · rw [withShard_of_ne same] at waits ⊢
      exact closing.stale other control old waits
  · by_cases same : other = index
    · subst same
      rw [withShard_self] at present ⊢
      obtain old | ⟨waits, allowed⟩ := advances.made control present
      · refine (closing.fresh other control old).imp_right fun ⟨task, isTask, isStop⟩ => ?_
        obtain stays | isOther | ⟨-, none⟩ := advances.tasks task isTask
        · exact ⟨task, stays, isStop⟩
        · exact absurd isStop isOther
        · exact absurd (none ▸ present) not_mem_nil
      · exact .inl (new control waits allowed)
    · rw [withShard_of_ne same] at present ⊢
      exact closing.fresh other control present

theorem Closing.recent (closing : Closing state) (accounts : Accounts config state)
    (awaits : Awaits config False state awaited) (waits : 0 < (state.shards index).waiting control)
    (allowed : state.mustFail control = false) : control ∈ state.recent := by
  simp only [mustFail, Bool.or_eq_false_iff, Bool.not_eq_false', decide_eq_false_iff_not] at allowed
  obtain ⟨⟨-, going⟩, notCancelled⟩ := allowed
  have flying : 0 < (state.shards index).flights control := ClientShard.flights_pos waits
  obtain ⟨isHere, -⟩ := accounts.placed index control (ClientShard.mem_kept_of_flights flying)
  by_contra old
  obtain isCancelled | ⟨task, isTask, cancels⟩ := closing.stale index control old waits
  · exact notCancelled (isHere ▸ isCancelled)
  · exact not_isStop awaits going index task isTask cancels.isStop

theorem Closing.keep (closing : Closing state) (recent : after.recent = state.recent)
    (shards : after.shards = state.shards) : Closing after := by
  refine ⟨?_, ?_⟩
  · rw [recent, shards]
    exact closing.stale
  · rw [recent, shards]
    exact closing.fresh

theorem Closing.schedule (closing : Closing state) {task : ClientTask}
    (recent : ∀ control ∈ state.recent, control ∈ after.recent)
    (new : ∀ control, task = .connect control → control ∈ after.recent)
    (shards : after.shards = (state.schedule index task).shards) : Closing after := by
  have others : ∀ other, other ≠ index → after.shards other = state.shards other :=
    fun other distinct => by rw [shards, ClientState.schedule, withShard_of_ne distinct]
  have own : after.shards index =
      { state.shards index with tasks := (state.shards index).tasks ++ [task] } := by
    rw [shards, ClientState.schedule, withShard_self]
  refine ⟨fun other control old waits => ?_, fun other control present => ?_⟩
  · have older : control ∉ state.recent := fun isRecent => old (recent control isRecent)
    by_cases same : other = index
    · subst same
      rw [own, ClientShard.waiting_append, if_neg fun isNew => old (new control isNew)] at waits
      rw [own]
      refine (closing.stale other control older waits).imp_right ?_
      rintro ⟨other, isTask, cancels⟩
      exact ⟨other, mem_append_left _ isTask, cancels⟩
    · rw [others other same] at waits ⊢
      exact closing.stale other control older waits
  · by_cases same : other = index
    · subst same
      rw [own] at present ⊢
      refine (closing.fresh other control present).imp (recent control) ?_
      rintro ⟨other, isTask, isStop⟩
      exact ⟨other, mem_append_left _ isTask, isStop⟩
    · rw [others other same] at present ⊢
      exact (closing.fresh other control present).imp_left (recent control)

theorem closing_connect (closing : Closing state) (env : ClientEnv) (connecting : ConnectConfig) :
    Closing (state.connect config env connecting).2 := by
  obtain same | isRefused | ⟨control, isAccepted⟩ := connect_cases config env state connecting
  · rwa [same]
  · rw [isRefused.eq]
    exact closing.keep rfl rfl
  · rw [isAccepted.eq]
    have numbered : Closing state.numbered := closing.keep rfl rfl
    refine numbered.schedule (fun _ => mem_append_left _) (fun other isNew => ?_) rfl
    cases isNew
    exact mem_append_right _ (mem_singleton_self _)

theorem scheduleStops_shards (env : ClientEnv) (collected : List ConnectControl)
    {shards : List Nat} (distinct : shards.Nodup) (state : ClientState) :
    (scheduleStops env collected shards state).recent = state.recent ∧
    ∀ index, (scheduleStops env collected shards state).shards index =
      if index ∈ shards ∧ env.accepts index = true then
        { state.shards index with
          tasks := (state.shards index).tasks ++ [.stop (collected.filter (·.shard = index))] }
      else state.shards index := by
  induction shards generalizing state with
  | nil => exact ⟨rfl, fun _ => (if_neg fun both => absurd both.1 not_mem_nil).symm⟩
  | cons first rest ih =>
    obtain ⟨notLater, restDistinct⟩ := nodup_cons.mp distinct
    rw [scheduleStops, foldl_cons]
    obtain ⟨recent, shards⟩ := ih restDistinct (if env.accepts first then
      state.schedule first (.stop (collected.filter (·.shard = first)))
      else state.handleStopResult)
    obtain ⟨sameRecent, sameShards⟩ := handleStopResult_frame state
    refine ⟨recent.trans ?_, fun index => (shards index).trans ?_⟩
    · split
      · rfl
      · exact sameRecent
    · by_cases same : index = first
      · subst same
        rw [if_neg fun both => notLater both.1]
        by_cases accepts : env.accepts index
        · rw [if_pos accepts, if_pos ⟨mem_cons_self, accepts⟩, ClientState.schedule, withShard_self]
        · rw [if_neg accepts, if_neg fun both => accepts both.2, sameShards]
      · have unchanged : ((if env.accepts first then
            state.schedule first (.stop (collected.filter (·.shard = first)))
            else state.handleStopResult).shards index) = state.shards index := by
          split
          · exact withShard_of_ne same
          · rw [sameShards]
        rw [unchanged]
        simp only [mem_cons, same, false_or]

def idle (shard : ClientShard) : Bool :=
  shard.connections.isEmpty && shard.connecting.isEmpty && shard.tasks.isEmpty

theorem waiting_of_idle (isIdle : idle shard = true) : shard.waiting control = 0 := by
  simp only [idle, Bool.and_eq_true, List.isEmpty_iff] at isIdle
  simp [ClientShard.waiting, isIdle]

/-- A stop that does something: no task of it is refused unless the shard is idle, and
there is memory for the connects that it cancels. -/
def stopsUsedShards (config : ServerConfig) (state : ClientState) : Action → Prop
  | .stop env => state.stopping = false → state.running = true →
      env.collectFails = false ∧ (∀ control ∈ state.pendingConnects, env.collects control = true) ∧
        ∀ index ∈ List.range config.threadCount,
          env.accepts index = true ∨ idle (state.shards index) = true
  | _ => True

instance (config : ServerConfig) (state : ClientState) :
    ∀ action, Decidable (stopsUsedShards config state action)
  | .stop _ => inferInstanceAs (Decidable (_ → _ → _ ∧ _ ∧ _))
  | .connect .. | .handleResult _ | .runTask .. | .resume .. | .close .. | .complete .. =>
    .isTrue trivial

section

variable (accounts : Accounts config state) (closing : Closing state)

include accounts closing

theorem not_busy (awaits : Awaits config False state awaited) (going : state.stopping = false)
    (none : state.running = false ∨ config.threadCount = 0) (index : Nat) :
    (state.shards index).connections = [] ∧
      ∀ control ∈ state.recent, (state.shards index).waiting control = 0 := by
  have notPlaced : ∀ control ∈ state.recent, ¬ (0 < (state.shards index).flights control ∨
      control ∈ (state.shards index).connections) := by
    intro control recent busy
    have running := Accounts.running accounts recent busy
    obtain notRunning | noThreads := none
    · exact absurd (running.symm.trans notRunning) (by decide)
    · obtain ⟨-, inside, -⟩ : Placed config state index control := busy.elim
        (fun flying => accounts.placed index control (ClientShard.mem_kept_of_flights flying))
        fun present => (accounts.made index control present).1
      omega
  refine ⟨eq_nil_iff_forall_not_mem.mpr fun control present => ?_, fun control recent => ?_⟩
  · obtain recent | ⟨task, isTask, isStop⟩ := closing.fresh index control present
    · exact notPlaced control recent (.inr present)
    · exact not_isStop awaits going index task isTask isStop
  · refine Nat.eq_zero_of_not_pos fun waits => notPlaced control recent (.inl ?_)
    exact ClientShard.flights_pos waits

theorem closing_scheduleStops (used : env.collectFails = false ∧
      (∀ control ∈ state.pendingConnects, env.collects control = true) ∧
      ∀ index ∈ List.range config.threadCount,
        env.accepts index = true ∨ idle (state.shards index) = true) :
    Closing (scheduleStops env (state.collectPendingConnects config env).2
      (List.range config.threadCount) (state.beginStop config env config.threadCount)) := by
  obtain ⟨memory, collects, accepts⟩ := used
  obtain ⟨-, shards⟩ := scheduleStops_shards env (state.collectPendingConnects config env).2
    nodup_range (state.beginStop config env config.threadCount)
  refine ⟨fun index control _ waits => ?_, fun index control present => ?_⟩
  · rw [shards] at waits ⊢
    have waited : 0 < (state.shards index).waiting control := by
      split at waits
      · rwa [ClientShard.waiting_append, if_neg nofun] at waits
      · exact waits
    have flying : 0 < (state.shards index).flights control := ClientShard.flights_pos waited
    have kept := ClientShard.mem_kept_of_flights flying
    obtain ⟨isHere, inside, -⟩ := accounts.placed index control kept
    have reached := (accepts index (mem_range.mpr inside)).resolve_right fun isIdle =>
      absurd (waiting_of_idle isIdle) (Nat.ne_of_gt waited)
    rw [if_pos ⟨mem_range.mpr inside, reached⟩]
    by_cases recent : control ∈ state.recent
    · subst isHere
      have isPending := accounts.known control (accounts.owed control recent flying) kept
      refine .inr ⟨_, mem_append_right _ (mem_singleton_self _), ?_⟩
      exact mem_filter.mpr ⟨mem_collected_of memory (collects control isPending) isPending
        (accounts.lives kept), decide_eq_true rfl⟩
    · exact (closing.stale index control recent waited).imp_right fun ⟨task, isTask, cancels⟩ =>
        ⟨task, mem_append_left _ isTask, cancels⟩
  · rw [shards] at present ⊢
    have open' : control ∈ (state.shards index).connections := by
      split at present <;> exact present
    obtain ⟨-, inside, -⟩ := (accounts.made index control open').1
    have reached := (accepts index (mem_range.mpr inside)).resolve_right fun isIdle => by
      simp only [idle, Bool.and_eq_true, List.isEmpty_iff] at isIdle
      exact absurd (isIdle.1.1 ▸ open') not_mem_nil
    rw [if_pos ⟨mem_range.mpr inside, reached⟩]
    exact .inr ⟨_, mem_append_right _ (mem_singleton_self _), rfl⟩

theorem closing_stop (awaits : Awaits config False state awaited)
    (used : stopsUsedShards config state (.stop env)) : Closing (state.stop config env).2 := by
  have stopped := stop_cases config env state
  generalize state.stop config env = outcome at stopped ⊢
  cases stopped with
  | refused => exact closing
  | idle going none =>
    obtain ⟨sameRecent, sameShards⟩ := handleStopResult_frame (state.beginStop config env 0)
    have begun : Closing (state.beginStop config env 0) := by
      refine ⟨fun index control _ waits => ?_, fun index control present => ?_⟩
      · by_cases recent : control ∈ state.recent
        · have settled := (not_busy accounts closing awaits going none index).2 control recent
          exact absurd settled (Nat.ne_of_gt waits)
        · exact closing.stale index control recent waits
      · have closed := (not_busy accounts closing awaits going none index).1
        exact absurd (closed ▸ present) not_mem_nil
    exact begun.keep sameRecent sameShards
  | stuck going running shards fails =>
    exact absurd (fails.1.symm.trans (used going running).1) (by decide)
  | scheduled going running shards =>
    exact closing_scheduleStops accounts closing (used going running)

end

theorem closing_step (accounts : Accounts config state) (closing : Closing state)
    (awaits : Awaits config False state awaited) (permitted : stopsUsedShards config state action)
    (steps : step config state action = some after) : Closing after := by
  have new : ∀ index control, 0 < (state.shards index).waiting control →
      state.mustFail control = false → control ∈ state.recent :=
    fun _ _ => closing.recent accounts awaits
  cases step_cases steps with
  | connect connecting env => exact closing_connect closing env connecting
  | stop env => exact closing_stop accounts closing awaits permitted
  | @move action index shard moves => exact closing.advances moves.advances (new index)
  | @lose index result rest next elsewhere =>
    exact closing.advances (Takes.outcome next).advances (new index)
  | @handle action index result shard takes =>
    have taken := closing.advances takes.advances (new index)
    cases result with
    | connect control connected =>
      obtain ⟨-, -, sameRecent, sameShards⟩ := handleConnectResult_frame config
        (state.withShard index shard) control connected
      exact taken.keep sameRecent sameShards
    | stop =>
      obtain ⟨sameRecent, sameShards⟩ := handleStopResult_frame (state.withShard index shard)
      exact taken.keep sameRecent sameShards

theorem closing_reachable
    (reached : (system config).ReachableUnder (stopsUsedShards config) state) : Closing state := by
  induction reached with
  | start starts =>
    cases (show _ = initial from starts)
    exact ⟨fun _ _ _ waits => absurd waits (Nat.lt_irrefl 0),
      fun _ _ absent => absurd absent not_mem_nil⟩
  | next reached permitted steps ih =>
    obtain ⟨awaited, awaits⟩ : ∃ awaited, Awaits config False _ awaited :=
      awaits_reachable (fun isLossless => isLossless.elim) reached
    exact closing_step (accounts_reachable reached) ih awaits permitted steps

theorem endsClosed_of_stop (accounts : Accounts config state) (closing : Closing state)
    (awaits : Awaits config False state awaited) (succeeds : (state.stop config env).1 = true)
    (used : ((state.stop config env).2.shards index).connections ≠ []) :
    EndsClosed (·.isStop = false) (·.isStop = true)
      ((state.stop config env).2.shards index).tasks := by
  have stopped := stop_cases config env state
  generalize state.stop config env = outcome at stopped succeeds used ⊢
  cases stopped with
  | refused => cases succeeds
  | idle going none =>
    rw [(handleStopResult_frame (state.beginStop config env 0)).2] at used
    exact absurd (not_busy accounts closing awaits going none index).1 used
  | stuck => cases succeeds
  | scheduled going running shards =>
    obtain ⟨-, isStopped⟩ := scheduleStops_shards env
      (state.collectPendingConnects config env).2 nodup_range
      (state.beginStop config env config.threadCount)
    rw [isStopped] at used ⊢
    have present : (state.shards index).connections ≠ [] := by
      split at used <;> exact used
    obtain ⟨control, isOpen⟩ := exists_mem_of_ne_nil _ present
    obtain ⟨-, inside, -⟩ := (accounts.made index control isOpen).1
    have accepted := all_eq_true.mp succeeds index (mem_range.mpr inside)
    rw [if_pos ⟨mem_range.mpr inside, accepted⟩]
    exact endsClosed_concat _ rfl nofun

end AsyncFlow.Client
