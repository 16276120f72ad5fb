import AsyncFlow.ClientClosing
import AsyncFlow.ServerStops
import AsyncFlow.UdpTracking

/-!
# Stops that are tried again

A stop that returns true has sent a stop task to every shard that has something
open, or an earlier stop has and the shard has not run it yet.
-/

namespace AsyncFlow

namespace StopRetries

open SettlingQueue Server

/-- What a stop that returns true leaves, for servers, clients and UDP sockets. -/
theorem stop_covers_open_shards (config : ServerConfig) :
    (∀ state, (system config).ReachableUnder (ServerStops.stopsUsedShards config) state →
      ∀ env, (state.stop config env).1 = true → ∀ shard < config.threadCount,
        ServerStops.InUse (state.stop config env).2 shard →
          EndsClosed ServerStops.Adds (· = .stop) ((state.stop config env).2.tasks shard)) ∧
    (∀ state, (Client.system config).ReachableUnder (Client.stopsUsedShards config) state →
      ∀ env, (state.stop config env).1 = true → ∀ shard,
        ((state.stop config env).2.shards shard).connections ≠ [] →
          EndsClosed (·.isStop = false) (·.isStop = true)
            ((state.stop config env).2.shards shard).tasks) ∧
    (∀ state, (Udp.system config).ReachableUnder UdpTracking.tracksShards state →
      ∀ env, (state.stop env).1 = true → ∀ shard, (state.stop env).2.sockets shard = true →
        EndsClosed (· = .start) (· = .stop) ((state.stop env).2.tasks shard)) := by
  refine ⟨fun state reached env succeeds shard inside used => ?_,
    fun state reached env succeeds shard used => ?_,
    fun state reached env succeeds shard isOpen => ?_⟩
  · exact ServerStops.endsClosed_of_stopped (ServerStops.stopped_reachable reached) succeeds inside
      used
  · obtain ⟨awaited, awaits⟩ : ∃ awaited, ClientState.Awaits config False state awaited :=
      Client.awaits_reachable (fun isLossless => isLossless.elim) reached
    exact Client.endsClosed_of_stop (Client.accounts_reachable reached)
      (Client.closing_reachable reached) awaits succeeds used
  · have settled := UdpTracking.settled_of_stopped (UdpTracking.inv_reachable reached) succeeds shard
    exact settled.resolve_right fun closed => closed.1 isOpen

def notStop : Action → Bool
  | .stop _ => false
  | _ => true

theorem stop_covers_open_shards_again : (∃ state, (system threeThreads).ReachableUnder
        (ServerStops.stopsUsedShards threeThreads) state ∧
      (state.stop threeThreads { ControlEnv.good with fails := true }).1 = false ∧
      (state.stop threeThreads .good).1 = true ∧
      ServerStops.InUse (state.stop threeThreads .good).2 1 ∧
      EndsClosed ServerStops.Adds (· = .stop) ((state.stop threeThreads .good).2.tasks 1)) ∧
    (∃ state, (Client.system threeThreads).ReachableUnder
        (Client.stopsUsedShards threeThreads) state ∧
      (state.stop threeThreads .good).1 = true ∧
      ((state.stop threeThreads .good).2.shards 2).connections ≠ [] ∧
      EndsClosed (·.isStop = false) (·.isStop = true)
        ((state.stop threeThreads .good).2.shards 2).tasks) ∧
    (∃ state, (Udp.system threeThreads).ReachableUnder UdpTracking.tracksShards state ∧
      state.activeShards = [2] ∧ (state.stop .good).1 = true ∧
      (state.stop .good).2.sockets 2 = true ∧
      EndsClosed (· = .start) (· = .stop) ((state.stop .good).2.tasks 2)) := by
  obtain ⟨server, client, udp⟩ := stop_covers_open_shards threeThreads
  refine ⟨?_, ?_, ?_⟩
  · obtain ⟨state, reached, fails, succeeds, used⟩ :=
      (system threeThreads).exists_reachableUnder (fun _ action => notStop action)
      (show (system threeThreads).initial initial from rfl)
      [.addListener onTwoThreads .good, .start .good, .runTask 1 true true .good]
      (fun state => (state.stop threeThreads { ControlEnv.good with fails := true }).1 =
          false ∧ (state.stop threeThreads .good).1 = true ∧
        (((state.stop threeThreads .good).2.shards 1).listeners 0).isSome) (by decide)
    have isReached : (system threeThreads).ReachableUnder
        (ServerStops.stopsUsedShards threeThreads) state := by
      refine reached.mono fun state action noStop => ?_
      cases action <;> first | exact trivial | cases noStop
    have inUse : ServerStops.InUse (state.stop threeThreads .good).2 1 :=
      .inl ⟨0, Option.isSome_iff_ne_none.mp used⟩
    exact ⟨state, isReached, fails, succeeds, inUse,
      server state isReached .good succeeds 1 (by decide) inUse⟩
  · obtain ⟨state, reached, succeeds, used⟩ :=
      (Client.system threeThreads).exists_reachableUnder (Client.stopsUsedShards threeThreads)
      (show (Client.system threeThreads).initial Client.initial from rfl)
      [.connect Client.fromTwoShards .good, .runTask 1 (.ends true), .complete 1 true,
        .handleResult 1, .stop { ClientEnv.good with accepts := fun shard => shard = 1 },
        .runTask 1 .waits, .complete 1 true, .handleResult 1,
        .connect Client.fromTwoShards .good, .runTask 2 (.ends true)]
      (fun state => (state.stop threeThreads .good).1 = true ∧
        ((state.stop threeThreads .good).2.shards 2).connections ≠ []) (by decide)
    exact ⟨state, reached, succeeds, used, client state reached .good succeeds 2 used⟩
  · obtain ⟨state, reached, remaining, succeeds, isOpen⟩ :=
      (Udp.system threeThreads).exists_reachableUnder UdpTracking.tracksShards
      (show (Udp.system threeThreads).initial Udp.initial from rfl)
      [.start UdpTracking.onTwoShards .good, .runTask 1 false true, .runTask 2 false true,
        .handleResult 1, .handleResult 2,
        .stop { UdpEnv.good with stopAccepted := fun shard => shard ≠ 2 }]
      (fun state => state.activeShards = [2] ∧ (state.stop .good).1 = true ∧
        (state.stop .good).2.sockets 2 = true) (by decide)
    exact ⟨state, reached, remaining, succeeds, isOpen, udp state reached .good succeeds 2 isOpen⟩

/-- The stop task of one shard is refused.  The next stop returns true and does nothing:
the server leaves a listener open, and the client a connection. -/
theorem refused_stop_not_retried : (∃ state, (system threeThreads).Reachable state ∧
      (state.stop threeThreads .good).1 = true ∧
      ServerStops.InUse (state.stop threeThreads .good).2 1 ∧
      (state.stop threeThreads .good).2.tasks 1 = []) ∧
    ∃ state, (Client.system threeThreads).Reachable state ∧
      (state.stop threeThreads .good).1 = true ∧
      ((state.stop threeThreads .good).2.shards 1).connections ≠ [] ∧
      ((state.stop threeThreads .good).2.shards 1).tasks = [] := by
  refine ⟨?_, ?_⟩
  · obtain ⟨state, reached, succeeds, used, noTask⟩ :=
      (system threeThreads).exists_reachableUnder (fun _ _ => True)
      (show (system threeThreads).initial initial from rfl)
      [.addListener onTwoThreads .good, .start .good, .runTask 1 true true .good,
        .runTask 2 true true .good, .handleResult 1 .good, .handleResult 2 .good,
        .stop { ControlEnv.good with accepts := fun _ shard => shard ≠ 1 }]
      (fun state => (state.stop threeThreads .good).1 = true ∧
        (((state.stop threeThreads .good).2.shards 1).listeners 0).isSome ∧
        (state.stop threeThreads .good).2.tasks 1 = []) (by decide)
    exact ⟨state, reached, succeeds, .inl ⟨0, Option.isSome_iff_ne_none.mp used⟩, noTask⟩
  · exact (Client.system threeThreads).exists_reachableUnder (fun _ _ => True)
      (show (Client.system threeThreads).initial Client.initial from rfl)
      [.connect Client.fromTwoShards .good, .runTask 1 (.ends true), .complete 1 true,
        .handleResult 1, .stop { ClientEnv.good with accepts := fun shard => shard ≠ 1 },
        .runTask 0 .waits, .runTask 2 .waits, .complete 0 true, .complete 2 true, .handleResult 2]
      _ (by decide)

end StopRetries

end AsyncFlow
