import AsyncFlow.UdpControl
import AsyncFlow.SettlingQueue
import Mathlib.Data.List.Count
import Mathlib.Data.List.Nodup

/-!
# What the control thread of a UDP socket knows

A shard that is not on the list of active shards has its socket closed, or will have
once its queue is empty.  An error that is on its way from a shard is about a socket
that has not been opened since.
-/

namespace AsyncFlow

open Function List

namespace UdpTracking

open UdpState Udp SettlingQueue

variable {config : ServerConfig} {env : UdpEnv} {socket : UdpSocketConfig}
  {state after : UdpState} {shard : Nat}

theorem scheduleOn_eq (accepted : Nat → Bool) (task : UdpTask) (shards : List Nat)
    (state : UdpState) :
    ∃ tasks, scheduleOn accepted task shards state = { state with tasks := tasks } := by
  induction shards generalizing state with
  | nil => exact ⟨_, rfl⟩
  | cons shard shards ih =>
    unfold scheduleOn
    rw [foldl_cons]
    split
    · obtain ⟨tasks, same⟩ := ih (state.schedule shard task)
      exact ⟨tasks, same⟩
    · exact ih state

theorem scheduleOn_tasks (accepted : Nat → Bool) (task : UdpTask) (shards : List Nat)
    (state : UdpState) (shard : Nat) : (scheduleOn accepted task shards state).tasks shard =
      state.tasks shard ++ List.replicate ((shards.filter accepted).count shard) task := by
  induction shards generalizing state with
  | nil => simp [scheduleOn]
  | cons first shards ih =>
    unfold scheduleOn
    rw [foldl_cons]
    split
    next isAccepted =>
      rw [filter_cons_of_pos isAccepted]
      refine (ih _).trans ?_
      by_cases same : first = shard
      · subst same
        simp [schedule, replicate_succ]
      · simp [schedule, Ne.symm same, count_cons_of_ne same]
    next refused =>
      rw [filter_cons_of_neg refused]
      exact ih state

/-- The socket of the shard will be closed when its queue is empty. -/
def Settled (state : UdpState) (shard : Nat) : Prop :=
  Settles (· = UdpTask.start) (· = UdpTask.stop) (state.sockets shard = true) (state.tasks shard)

/-- A start task of the queue will find the socket closed, and is the only one. -/
def Ready (isOpen : Bool) : List UdpTask → Prop
  | [] => True
  | .start :: queue => isOpen = false ∧ .start ∉ queue
  | .stop :: queue => Ready false queue

structure Inv (state : UdpState) : Prop where
  tracked : ∀ shard, shard ∈ state.activeShards ∨ Settled state shard
  stopped : state.running = false → state.activeShards = []
  failed : ∀ shard, true ∈ state.results shard →
    .start ∉ state.tasks shard ∧ state.sockets shard = false
  ready : ∀ shard, Ready (state.sockets shard) (state.tasks shard)

variable {isOpen : Bool} {queue : List UdpTask}

theorem ready_of_no_start (none : .start ∉ queue) : Ready isOpen queue := by
  induction queue generalizing isOpen with
  | nil => trivial
  | cons task queue ih =>
    cases task with
    | start => exact absurd mem_cons_self none
    | stop => exact ih fun inside => none (mem_cons_of_mem _ inside)

theorem Ready.append_stops (ready : Ready isOpen queue) (count : Nat) :
    Ready isOpen (queue ++ List.replicate count .stop) := by
  induction queue generalizing isOpen with
  | nil => exact ready_of_no_start (by simp)
  | cons task queue ih =>
    cases task with
    | start => exact ⟨ready.1, by simpa using ready.2⟩
    | stop => exact ih ready

theorem ready_append_start (none : .start ∉ queue)
    (settles : Settles (· = UdpTask.start) (· = UdpTask.stop) (isOpen = true) queue) :
    Ready isOpen (queue ++ [.start]) := by
  induction queue generalizing isOpen with
  | nil => exact ⟨Bool.eq_false_iff.mpr settles.of_nil, not_mem_nil⟩
  | cons task queue ih =>
    cases task with
    | start => exact absurd mem_cons_self none
    | stop =>
      exact ih (fun inside => none (mem_cons_of_mem _ inside))
        (settles.pop (fun _ => Bool.false_ne_true) fun _ now => absurd now Bool.false_ne_true)

theorem Inv.settled (inv : Inv state) (notRunning : state.running = false) (shard : Nat) :
    Settled state shard := by
  refine (inv.tracked shard).resolve_left ?_
  rw [inv.stopped notRunning]
  exact not_mem_nil

theorem Inv.addStops (inv : Inv state) (sockets : after.sockets = state.sockets)
    (results : after.results = state.results)
    (tasks : ∀ shard, ∃ count, after.tasks shard = state.tasks shard ++ List.replicate count .stop ∧
      (shard ∈ after.activeShards ∨ Settled state shard ∨ count ≠ 0))
    (stopped : after.running = false → after.activeShards = []) : Inv after := by
  refine ⟨fun shard => ?_, stopped, fun shard error => ?_, fun shard => ?_⟩
  · obtain ⟨count, same, isActive | settled | added⟩ := tasks shard
    · exact .inl isActive
    · refine .inr ?_
      rw [Settled, same, sockets]
      exact settled.append fun task inside => by simp [eq_of_mem_replicate inside]
    · refine .inr ?_
      rw [Settled, same, sockets]
      have inside : UdpTask.stop ∈ List.replicate count .stop := mem_replicate.mpr ⟨added, rfl⟩
      exact .inl (endsClosed_append _ inside rfl fun task isIn => by
        simp [eq_of_mem_replicate isIn])
  · obtain ⟨count, same, _⟩ := tasks shard
    rw [results] at error
    rw [sockets, same]
    exact ⟨by simpa using (inv.failed shard error).1, (inv.failed shard error).2⟩
  · obtain ⟨count, same, _⟩ := tasks shard
    rw [sockets, same]
    exact (inv.ready shard).append_stops count

theorem scheduleOn_stops (env : UdpEnv) (inv : Inv state) (active : List Nat) (running : Bool) (shards : List Nat)
    (covered : ∀ shard, shard ∈ active ∨ Settled state shard ∨
      shard ∈ shards.filter env.stopAccepted) (stopped : running = false → active = []) :
    Inv { scheduleOn env.stopAccepted .stop shards state.cleared with
      activeShards := active, running := running } := by
  obtain ⟨tasks, same⟩ := scheduleOn_eq env.stopAccepted .stop shards state.cleared
  refine inv.addStops (by rw [same]; rfl) (by rw [same]; rfl) (fun shard => ?_) stopped
  refine ⟨_, scheduleOn_tasks env.stopAccepted .stop shards state.cleared shard, ?_⟩
  obtain isActive | settled | isStopped := covered shard
  · exact .inl isActive
  · exact .inr (.inl settled)
  · exact .inr (.inr (Nat.ne_of_gt (count_pos_iff.mpr isStopped)))

theorem scheduleOn_cleared (accepted : Nat → Bool) (task : UdpTask) (shards : List Nat) :
    { scheduleOn accepted task shards state.cleared with activeShards := [], running := false } =
      scheduleOn accepted task shards state.cleared := by
  obtain ⟨tasks, same⟩ := scheduleOn_eq accepted task shards state.cleared
  rw [same]
  rfl

/-! ### Operations of the control thread -/

/-- What `stop` may not meet: a refused task and no memory to remember the shard. -/
def Retries (env : UdpEnv) (state : UdpState) : Prop :=
  env.remainingFails = false ∨
    env.stoppedFails = false ∧ ∀ shard ∈ state.activeShards, env.stopAccepted shard = true

theorem stopShards_cases (env : UdpEnv) (shards : List Nat) (state : UdpState) :
    shards = [] ∧ stopShards env shards state = (true, [], state) ∨
      env.stoppedFails = true ∧ stopShards env shards state = (false, [], state) ∨
      stopShards env shards state = (shards.all env.stopAccepted, shards.filter env.stopAccepted,
        scheduleOn env.stopAccepted .stop shards state) := by
  unfold stopShards
  split
  · next empty => exact .inl ⟨isEmpty_iff.mp empty, rfl⟩
  split
  · next noMemory => exact .inr (.inl ⟨noMemory, rfl⟩)
  · exact .inr (.inr rfl)

theorem inv_stop (inv : Inv state) (retries : Retries env state) : Inv (state.stop env).2 := by
  have known : ∀ shard, shard ∈ state.activeShards ∨ Settled state shard := inv.tracked
  unfold UdpState.stop
  split
  · exact inv
  split
  · exact inv
  obtain ⟨empty, same⟩ | ⟨noMemory, same⟩ | same :=
    stopShards_cases env state.activeShards state.cleared
  · rw [same]
    refine scheduleOn_stops env inv [] false [] (fun shard => ?_) fun _ => rfl
    exact .inr (.inl ((known shard).resolve_left (empty ▸ not_mem_nil)))
  · have remembers : env.remainingFails = false := retries.resolve_right fun both =>
      absurd (noMemory.symm.trans both.1) nofun
    simp only [same, publishRemainingAfterFailedStop, remembers, Bool.false_eq_true, if_false]
    refine scheduleOn_stops env inv _ _ [] (fun shard => ?_) fun none => ?_
    · exact (known shard).imp (fun isActive => mem_filter.mpr ⟨isActive, by simp⟩) .inl
    · simpa using none
  · simp only [same]
    split
    next ok =>
      have all : ∀ shard ∈ state.activeShards, env.stopAccepted shard = true := by simpa using ok
      have stopped := scheduleOn_stops env inv [] false state.activeShards (fun shard => ?_)
        fun _ => rfl
      · rwa [scheduleOn_cleared] at stopped
      · refine (known shard).elim (fun isActive => .inr (.inr ?_)) fun settled => .inr (.inl settled)
        exact mem_filter.mpr ⟨isActive, all shard isActive⟩
    next refused =>
      have remembers : env.remainingFails = false := retries.resolve_right fun both =>
        refused (by simpa using both.2)
      simp only [publishRemainingAfterFailedStop, remembers, Bool.false_eq_true, if_false]
      refine scheduleOn_stops env inv _ _ state.activeShards (fun shard => ?_) fun none => ?_
      · refine (known shard).elim (fun isActive => ?_) fun settled => .inr (.inl settled)
        by_cases accepted : shard ∈ state.activeShards.filter env.stopAccepted
        · exact .inr (.inr accepted)
        · exact .inl (mem_filter.mpr ⟨isActive, decide_eq_true accepted⟩)
      · simpa using none

theorem stopShards_state {shards : List Nat} (remembers : env.stoppedFails = false) :
    (stopShards env shards state).2.2 = scheduleOn env.stopAccepted .stop shards state := by
  obtain ⟨rfl, same⟩ | ⟨noMemory, _⟩ | same := stopShards_cases env shards state
  · rw [same]
    rfl
  · exact absurd (remembers.symm.trans noMemory) nofun
  · rw [same]

/-- What `start` may not meet: a shard with news of an earlier start, and refused stop
tasks when it cleans up. -/
def StartsClean (env : UdpEnv) (socket : UdpSocketConfig) (state : UdpState) : Prop :=
  (∀ shard ∈ socket.threads, .start ∉ state.tasks shard ∧ true ∉ state.results shard) ∧
    (socket.threads.all env.startAccepted = true ∨ env.stoppedFails = false ∧
      ∀ shard ∈ socket.threads, env.startAccepted shard = true → env.stopAccepted shard = true)

theorem Inv.addStarts (inv : Inv state) (notRunning : state.running = false)
    (sockets : after.sockets = state.sockets) (results : after.results = state.results)
    (tasks : ∀ shard, after.tasks shard = state.tasks shard ∨
      (.start ∉ state.tasks shard ∧ true ∉ state.results shard) ∧
        (after.tasks shard = state.tasks shard ++ [.start] ∧ shard ∈ after.activeShards ∨
          after.tasks shard = state.tasks shard ++ [.start, .stop]))
    (stopped : after.running = false → after.activeShards = []) : Inv after := by
  have settled := inv.settled notRunning
  refine ⟨fun shard => ?_, stopped, fun shard error => ?_, fun shard => ?_⟩
  · obtain same | ⟨-, ⟨-, isActive⟩ | same⟩ := tasks shard
    · rw [Settled, same, sockets]
      exact .inr (settled shard)
    · exact .inl isActive
    · rw [Settled, same, sockets]
      exact .inr (.inl ⟨state.tasks shard ++ [.start], .stop, [], by simp, rfl, by simp⟩)
  · rw [results] at error
    obtain same | ⟨⟨_, noError⟩, _⟩ := tasks shard
    · rw [same, sockets]
      exact inv.failed shard error
    · exact absurd error noError
  · rw [sockets]
    obtain same | ⟨⟨none, _⟩, ⟨same, _⟩ | same⟩ := tasks shard
    · rw [same]
      exact inv.ready shard
    · rw [same]
      exact ready_append_start none (settled shard)
    · rw [same]
      have ready := (ready_append_start none (settled shard)).append_stops 1
      rwa [append_assoc] at ready

theorem validate_threads (valid : socket.validate config = true) : socket.threads.Nodup := by
  simp only [UdpSocketConfig.validate, Bool.and_eq_true, decide_eq_true_eq] at valid
  exact valid.2

theorem count_filter {shards : List Nat} (nodup : shards.Nodup) (accepted : Nat → Bool)
    (shard : Nat) : (shards.filter accepted).count shard =
      if shard ∈ shards ∧ accepted shard = true then 1 else 0 := by
  split
  · next inside => exact count_eq_one_of_mem (nodup.filter _) (mem_filter.mpr inside)
  next outside =>
    exact count_eq_zero_of_not_mem fun inside => outside (mem_filter.mp inside)

section

variable (inv : Inv state)

include inv

theorem inv_start (clean : state.running = false → StartsClean env socket state) :
    Inv (state.start config env socket).2 := by
  unfold UdpState.start
  split
  · exact inv
  next permitted =>
    simp only [Bool.or_eq_true, not_or, Bool.not_eq_true, Bool.not_eq_false'] at permitted
    obtain ⟨⟨notRunning, valid⟩, -⟩ := permitted
    have nodup := validate_threads valid
    obtain ⟨fresh, cleans⟩ := clean notRunning
    have settled := inv.settled notRunning
    split
    · refine scheduleOn_stops env inv [] false [] (fun shard => .inr (.inl (settled shard))) fun _ => rfl
    obtain ⟨tasks, isStarted⟩ := scheduleOn_eq env.startAccepted .start socket.threads
      { state with running := true, activeShards := socket.threads }
    have started := scheduleOn_tasks env.startAccepted .start socket.threads
      { state with running := true, activeShards := socket.threads }
    split
    · refine inv.addStarts notRunning (by rw [isStarted]) (by rw [isStarted]) (fun shard => ?_)
        (by rw [isStarted]; exact nofun)
      rw [started shard, count_filter nodup, isStarted]
      split
      · next inside => exact .inr ⟨fresh shard inside.1, .inl ⟨rfl, inside.1⟩⟩
      · exact .inl (append_nil _)
    next refused =>
      obtain ⟨remembers, accepted⟩ := cleans.resolve_left refused
      -- every shard that was started is stopped
      have both : (socket.threads.filter env.startAccepted).filter env.stopAccepted =
          socket.threads.filter env.startAccepted := by
        refine filter_eq_self.mpr fun shard inside => ?_
        exact accepted shard (mem_filter.mp inside).1 (mem_filter.mp inside).2
      have cleaned : ∀ shard, (scheduleOn env.stopAccepted .stop
          (socket.threads.filter env.startAccepted) (scheduleOn env.startAccepted .start
            socket.threads { state with running := true, activeShards := socket.threads }).cleared
          ).tasks shard = state.tasks shard ++
            if shard ∈ socket.threads ∧ env.startAccepted shard = true then [.start, .stop]
            else [] := fun shard => by
        rw [scheduleOn_tasks, both, count_filter nodup]
        refine (congrArg (· ++ _) (started shard)).trans ?_
        rw [count_filter nodup, append_assoc]
        split <;> rfl
      rw [stopShards_state remembers]
      obtain ⟨_, isCleaned⟩ := scheduleOn_eq env.stopAccepted .stop
        (socket.threads.filter env.startAccepted) (scheduleOn env.startAccepted .start
          socket.threads { state with running := true, activeShards := socket.threads }).cleared
      refine inv.addStarts notRunning (by rw [isCleaned, isStarted]; rfl)
        (by rw [isCleaned, isStarted]; rfl) (fun shard => ?_) (by rw [isCleaned]; exact fun _ => rfl)
      rw [cleaned shard]
      split
      · next inside => exact .inr ⟨fresh shard inside.1, .inr rfl⟩
      · exact .inl (append_nil _)

/-! ### Results and tasks of shards -/

theorem inv_dropShard (noStart : .start ∉ state.tasks shard)
    (closed : state.sockets shard = false) : Inv (state.dropShard shard) := by
  unfold dropShard
  split
  · refine ⟨fun own => ?_, fun isStopped => by simpa using isStopped, inv.failed, inv.ready⟩
    by_cases same : own = shard
    · subst same
      refine .inr (.inr ⟨Bool.eq_false_iff.mp closed, fun task inside isStart => ?_⟩)
      exact noStart (isStart ▸ inside)
    · exact (inv.tracked own).imp_left fun isActive => mem_filter.mpr ⟨isActive, by simp [same]⟩
  · exact inv

theorem inv_handleResult {error : Bool}
    (failed : error = true → .start ∉ state.tasks shard ∧ state.sockets shard = false) :
    Inv (state.handleResult shard error) := by
  unfold UdpState.handleResult
  split
  · next isError => exact inv_dropShard inv (failed isError).1 (failed isError).2
  · exact inv

theorem Inv.setResults {results : List Bool} (failed : true ∈ results → true ∈ state.results shard ∨
      .start ∉ state.tasks shard ∧ state.sockets shard = false) :
    Inv { state with results := update state.results shard results } := by
  refine { inv with failed := fun own isError => ?_ }
  by_cases same : own = shard
  · subst same
    simp only [update_self] at isError
    exact (failed isError).elim (inv.failed own) id
  · simp only [update_of_ne same] at isError
    exact inv.failed own isError

theorem inv_completeUdpStart {error accepted : Bool}
    (failed : error = true → .start ∉ state.tasks shard ∧ state.sockets shard = false) :
    Inv (state.completeUdpStart config shard error accepted) := by
  unfold completeUdpStart
  split
  · exact inv_handleResult inv failed
  split
  · refine inv.setResults fun isError => ?_
    obtain old | new := mem_append.mp isError
    · exact .inl old
    · exact .inr (failed (mem_singleton.mp new).symm)
  · exact inv

theorem Inv.popTask {task : UdpTask} {tasks : List UdpTask}
    (queue : state.tasks shard = task :: tasks) (ready : Ready isOpen tasks)
    (closing : task = .stop → isOpen = false)
    (opening : isOpen = true → state.sockets shard = true ∨ task = .start) : Inv { state with
      tasks := update state.tasks shard tasks
      sockets := update state.sockets shard isOpen } := by
  refine ⟨fun own => ?_, inv.stopped, fun own isError => ?_, fun own => ?_⟩
  · by_cases same : own = shard
    · subst same
      refine (inv.tracked own).imp_right fun settled => ?_
      simp only [Settled, update_self, queue] at settled ⊢
      refine settled.pop (fun isStop => Bool.eq_false_iff.mp (closing isStop)) fun none now => ?_
      exact (opening now).resolve_right (none task mem_cons_self)
    · simpa only [Settled, update_of_ne same] using inv.tracked own
  · by_cases same : own = shard
    · subst same
      obtain ⟨none, closed⟩ := inv.failed own isError
      rw [queue] at none
      simp only [update_self]
      refine ⟨fun inside => none (mem_cons_of_mem _ inside), Bool.eq_false_iff.mpr fun now => ?_⟩
      obtain wasOpen | rfl := opening now
      · exact absurd (closed.symm.trans wasOpen) nofun
      · exact none mem_cons_self
    · simpa only [update_of_ne same] using inv.failed own isError
  · by_cases same : own = shard
    · subst same
      simpa only [update_self] using ready
    · simpa only [update_of_ne same] using inv.ready own

theorem inv_runTask {task : UdpTask} {tasks : List UdpTask} {fails accepted : Bool}
    (queue : state.tasks shard = task :: tasks) :
    Inv ({ state with tasks := update state.tasks shard tasks }.runTask config shard fails
      accepted task) := by
  have ready := inv.ready shard
  rw [queue] at ready
  cases task with
  | start =>
    obtain ⟨closed, none⟩ := ready
    have popped : ∀ isOpen, Inv { state with
        tasks := update state.tasks shard tasks
        sockets := update state.sockets shard isOpen } := fun isOpen =>
      inv.popTask queue (ready_of_no_start none) nofun fun _ => .inr rfl
    unfold UdpState.runTask startOnOwner
    simp only [closed, Bool.false_or]
    split
    · have stays := popped false
      rw [← closed, update_eq_self] at stays
      exact inv_completeUdpStart stays fun _ => ⟨by simpa using none, closed⟩
    · exact inv_completeUdpStart (popped true) nofun
  | stop => exact inv.popTask queue ready (fun _ => rfl) nofun

end

end UdpTracking

end AsyncFlow
