import AsyncFlow.ServerSystem
import AsyncFlow.UdpInvariant

/-!
# Tracking of the shards of a UDP socket

Every shard with an open socket is on the list of active shards or has a stop task
on its way, provided that a socket is started only when all results of earlier
starts have been handled, and that the tasks that clean up are not refused.
-/

namespace AsyncFlow

open Function List

namespace UdpTracking

open UdpState Udp SettlingQueue

variable {config : ServerConfig} {env : UdpEnv} {state after : UdpState} {shard : Nat}

/-! ### A stop that succeeds -/

theorem stop_of_true (stopped : (state.stop env).1 = true) :
    state.running = false ∧ (state.stop env).2 = state ∨
      (∀ shard ∈ state.activeShards, env.stopAccepted shard = true) ∧
        (state.stop env).2 = scheduleOn env.stopAccepted .stop state.activeShards state.cleared := by
  unfold UdpState.stop at stopped ⊢
  split at stopped
  · next notRunning => exact .inl ⟨by simpa using notRunning, by rw [if_pos notRunning]⟩
  next isRunning =>
    rw [if_neg isRunning]
    split at stopped
    · cases stopped
    next memory =>
      rw [if_neg memory]
      refine .inr ?_
      obtain ⟨empty, same⟩ | ⟨_, same⟩ | same :=
        stopShards_cases env state.activeShards state.cleared
      · rw [same, empty]
        exact ⟨fun _ inside => absurd inside not_mem_nil, rfl⟩
      · rw [same] at stopped
        cases stopped
      · simp only [same] at stopped ⊢
        split at stopped
        · next ok => exact ⟨by simpa using ok, by rw [if_pos ok]⟩
        · cases stopped

theorem settled_of_stopped (inv : Inv state) (stopped : (state.stop env).1 = true) (shard : Nat) :
    Settled (state.stop env).2 shard := by
  obtain ⟨notRunning, same⟩ | ⟨accepted, same⟩ := stop_of_true stopped
  · rw [same]
    exact inv.settled notRunning shard
  · rw [same, ← scheduleOn_cleared]
    refine (scheduleOn_stops env inv [] false state.activeShards (fun own => ?_)
      fun _ => rfl).settled rfl shard
    exact (inv.tracked own).elim
      (fun isActive => .inr (.inr (mem_filter.mpr ⟨isActive, accepted own isActive⟩)))
      fun settled => .inr (.inl settled)

theorem stop_tasks (env : UdpEnv) (state : UdpState) (shard : Nat) :
    (state.stop env).2.sockets = state.sockets ∧ ∃ count,
      (state.stop env).2.tasks shard = state.tasks shard ++ List.replicate count .stop := by
  have unchanged : ∃ count, state.tasks shard = state.tasks shard ++ List.replicate count .stop :=
    ⟨0, (append_nil _).symm⟩
  have published : ∀ middle requested stopped,
      (publishRemainingAfterFailedStop env middle requested stopped).sockets = middle.sockets ∧
        (publishRemainingAfterFailedStop env middle requested stopped).tasks = middle.tasks := by
    intro middle requested stopped
    unfold publishRemainingAfterFailedStop
    split <;> exact ⟨rfl, rfl⟩
  unfold UdpState.stop
  split
  · exact ⟨rfl, unchanged⟩
  split
  · exact ⟨rfl, unchanged⟩
  obtain ⟨-, same⟩ | ⟨-, same⟩ | same := stopShards_cases env state.activeShards state.cleared
  · rw [same]
    exact ⟨rfl, unchanged⟩
  · simp only [same, Bool.false_eq_true, if_false]
    rw [(published _ _ _).1, (published _ _ _).2]
    exact ⟨rfl, unchanged⟩
  · obtain ⟨_, isStopped⟩ := scheduleOn_eq env.stopAccepted .stop state.activeShards state.cleared
    have tasks := scheduleOn_tasks env.stopAccepted .stop state.activeShards state.cleared shard
    have sockets : (scheduleOn env.stopAccepted .stop state.activeShards state.cleared).sockets =
        state.sockets := by rw [isStopped]; rfl
    simp only [same]
    split
    · exact ⟨sockets, _, tasks⟩
    · rw [(published _ _ _).1, (published _ _ _).2]
      exact ⟨sockets, _, tasks⟩

/-- A socket is started only when all news of earlier starts has been handled and
cleaning up works, and stopped only when refused tasks can be remembered. -/
def tracksShards (state : UdpState) : Action → Prop
  | .start socket env => state.running = false → StartsClean env socket state
  | .stop env => Retries env state
  | _ => True

instance : ∀ action, Decidable (tracksShards state action)
  | .start _ _ => inferInstanceAs (Decidable (_ → _ ∧ _))
  | .stop _ => inferInstanceAs (Decidable (_ ∨ _))
  | .handleResult _ | .runTask _ _ _ => .isTrue trivial

theorem inv_step {action : Action} (inv : Inv state) (permitted : tracksShards state action)
    (steps : step config state action = some after) : Inv after := by
  cases action with
  | start socket env =>
    cases steps
    exact inv_start inv permitted
  | stop env =>
    cases steps
    exact inv_stop inv permitted
  | handleResult shard =>
    simp only [step] at steps
    split at steps
    next error results queue =>
      cases steps
      have fewer : Inv { state with results := update state.results shard results } :=
        inv.setResults fun isError => .inl (queue ▸ mem_cons_of_mem _ isError)
      refine inv_handleResult fewer fun isError => inv.failed shard ?_
      rw [queue, isError]
      exact mem_cons_self
    · cases steps
  | runTask shard fails accepted =>
    simp only [step] at steps
    split at steps
    next task tasks queue =>
      cases steps
      exact inv_runTask inv queue
    · cases steps

theorem inv_reachable (reached : (system config).ReachableUnder tracksShards state) : Inv state := by
  induction reached with
  | start starts =>
    cases starts
    exact ⟨fun _ => .inr (.inr ⟨Bool.false_ne_true, fun _ inside => absurd inside not_mem_nil⟩),
      fun _ => rfl, fun _ inside => absurd inside not_mem_nil, fun _ => trivial⟩
  | next _ permitted steps ih => exact inv_step ih permitted steps

def notStart : Action → Prop
  | .start _ _ => False
  | _ => True

theorem handleResult_same (shard : Nat) (error : Bool) :
    (state.handleResult shard error).sockets = state.sockets ∧
      (state.handleResult shard error).tasks = state.tasks := by
  unfold UdpState.handleResult dropShard
  split
  · split <;> exact ⟨rfl, rfl⟩
  · exact ⟨rfl, rfl⟩

theorem completeUdpStart_same (shard : Nat) (error accepted : Bool) :
    (state.completeUdpStart config shard error accepted).sockets = state.sockets ∧
      (state.completeUdpStart config shard error accepted).tasks = state.tasks := by
  unfold completeUdpStart
  split
  · exact handleResult_same shard error
  split <;> exact ⟨rfl, rfl⟩

theorem runTask_same (config : ServerConfig) (state : UdpState) (shard : Nat)
    (fails accepted : Bool) (task : UdpTask) :
    (state.runTask config shard fails accepted task).tasks = state.tasks ∧
      ∃ isOpen, (state.runTask config shard fails accepted task).sockets =
        update state.sockets shard isOpen ∧ (task = .stop → isOpen = false) ∧
          (task ≠ .start → isOpen = true → state.sockets shard = true) := by
  cases task with
  | start =>
    simp only [UdpState.runTask, startOnOwner]
    split
    · refine ⟨(completeUdpStart_same _ _ _).2, state.sockets shard, ?_, nofun, fun no => absurd rfl no⟩
      rw [update_eq_self]
      exact (completeUdpStart_same _ _ _).1
    · exact ⟨(completeUdpStart_same _ _ _).2, true, (completeUdpStart_same _ _ _).1, nofun,
        fun no => absurd rfl no⟩
  | stop => exact ⟨rfl, false, rfl, fun _ => rfl, nofun⟩

theorem settled_step {action : Action} (settled : Settled state shard) (noStart : notStart action)
    (steps : step config state action = some after) : Settled after shard := by
  cases action with
  | start socket env => exact noStart.elim
  | stop env =>
    cases steps
    obtain ⟨sockets, count, tasks⟩ := stop_tasks env state shard
    rw [Settled, sockets, tasks]
    exact settled.append fun task inside => by simp [eq_of_mem_replicate inside]
  | handleResult own =>
    simp only [step] at steps
    split at steps
    · cases steps
      rw [Settled, (handleResult_same _ _).1, (handleResult_same _ _).2]
      exact settled
    · cases steps
  | runTask own fails accepted =>
    simp only [step] at steps
    split at steps
    next task tasks queue =>
      cases steps
      obtain ⟨sameTasks, isOpen, sockets, closing, keeps⟩ := runTask_same config
        { state with tasks := update state.tasks own tasks } own fails accepted task
      rw [Settled, sockets, sameTasks]
      by_cases same : shard = own
      · subst same
        simp only [update_self]
        rw [Settled, queue] at settled
        exact settled.pop (fun isStop => Bool.eq_false_iff.mp (closing isStop))
          fun none now => keeps (none task mem_cons_self) now
      · simp only [update_of_ne same]
        exact settled
    · cases steps

theorem settled_later (settled : Settled state shard)
    (later : ((system config).startingAt state).ReachableUnder (fun _ => notStart)
      after) : Settled after shard := by
  induction later with
  | start starts => exact (show _ = state from starts) ▸ settled
  | next _ noStart steps ih => exact settled_step ih noStart steps

/-- Every shard with an open socket is active or has a task on its way, and a stop that
returns true closes all sockets: unless the socket is started again, each is closed
when the queue of its shard is empty. -/
theorem open_sockets_tracked (reached : (system config).ReachableUnder tracksShards state) :
    (∀ shard, state.sockets shard = true → shard ∈ state.activeShards ∨ state.tasks shard ≠ []) ∧
    ∀ env later, (state.stop env).1 = true →
      ((system config).startingAt (state.stop env).2).ReachableUnder (fun _ => notStart) later →
      ∀ shard, later.tasks shard = [] → later.sockets shard = false := by
  have inv := inv_reachable reached
  refine ⟨fun shard isOpen => (inv.tracked shard).imp_right fun settled empty => ?_,
    fun env later stopped goesOn shard empty => ?_⟩
  · rw [Settled, empty] at settled
    exact settled.of_nil isOpen
  · have settled := settled_later (settled_of_stopped inv stopped shard) goesOn
    rw [Settled, empty] at settled
    exact Bool.eq_false_iff.mpr settled.of_nil

def onTwoShards : UdpSocketConfig where
  threads := [1, 2]
  localEndpoint := ⟨.ipv4, false, 0, true⟩
  remoteEndpoint := ⟨.ipv4, false, 0, true⟩
  connectRemote := false
  reusePort := true
  readBudgetDatagrams := 64
  receiveBufferSize := 2048
  maxDatagramSize := 1200

theorem open_sockets_tracked_failed :
    ∃ state, (system Server.threeThreads).ReachableUnder tracksShards state ∧
      state.sockets 1 = true ∧ state.activeShards = [1] ∧ (state.stop .good).1 = true ∧
      (∀ shard, state.sockets shard = true → shard ∈ state.activeShards ∨ state.tasks shard ≠ []) ∧
      ∀ later, ((system Server.threeThreads).startingAt (state.stop .good).2).ReachableUnder
        (fun _ => notStart) later →
          ∀ shard, later.tasks shard = [] → later.sockets shard = false := by
  obtain ⟨state, reached, isOpen, isActive, stops⟩ :=
    (system Server.threeThreads).exists_reachableUnder tracksShards
    (show (system Server.threeThreads).initial initial from rfl)
    [.start onTwoShards .good, .runTask 1 false true, .runTask 2 true true, .handleResult 1,
      .handleResult 2]
    (fun state => state.sockets 1 = true ∧ state.activeShards = [1] ∧ (state.stop .good).1 = true)
    (by decide)
  obtain ⟨tracked, closes⟩ := open_sockets_tracked reached
  exact ⟨state, reached, isOpen, isActive, stops, tracked, fun later => closes .good later stops⟩

/-- The error of the first start is handled after the second one has opened the
socket: its shard is not active and the next stop does nothing. -/
theorem stale_error_loses_socket :
    ∃ state, (system Server.threeThreads).Reachable state ∧ state.sockets 1 = true ∧
      1 ∉ state.activeShards ∧ state.tasks 1 = [] ∧ (state.stop .good).1 = true ∧
      (state.stop .good).2 = state := by
  obtain ⟨state, reached, isOpen, notActive, noTask, notRunning⟩ :=
    (system Server.threeThreads).exists_reachableUnder (fun _ _ => True)
      (show (system Server.threeThreads).initial initial from rfl)
      [.start { onTwoShards with threads := [1] } .good, .runTask 1 true true, .stop .good,
        .start { onTwoShards with threads := [1] } .good, .runTask 1 false true,
        .runTask 1 false true, .handleResult 1]
      (fun state => state.sockets 1 = true ∧ 1 ∉ state.activeShards ∧ state.tasks 1 = [] ∧
        state.running = false) (by decide)
  refine ⟨state, reached, isOpen, notActive, noTask, ?_, ?_⟩ <;> simp [UdpState.stop, notRunning]

end UdpTracking

end AsyncFlow
