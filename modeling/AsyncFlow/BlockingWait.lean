import AsyncFlow.SchedulerMoves
import AsyncFlow.WaitGraph
import Mathlib.Data.Set.Finite.Basic

/-!
# Executors that wait for each other

A blocking enqueue on a full local ring executes tasks of that ring; on SPSC and
external queues it only waits until the consumer makes room.  An executor that
waits pops nothing, so executors that wait for each other in a circle wait
forever.
-/

namespace AsyncFlow

open Function List Option
namespace Scheduler

open Relation

/-- The executor has found the queue full and keeps trying.  A local ring is
left out: its executor pops from it while it waits. -/
def stuckAt (config : Config) (state : SchedulerState) (executor : Nat) (place : Place) : Prop :=
  ∃ frame ∈ (state.callStack (.executor executor)).head?,
    pushTarget config (.executor executor) frame = some (place, true) ∧
      hasWaited frame = true ∧ ∀ index, place ≠ .localRing index

def isFull (config : Config) (state : SchedulerState) (place : Place) : Prop :=
  config.capacity place ≤ (state.queues place).length

/-- The executor waits in a blocking enqueue for room that only the other one
can make. -/
def waitsFor (config : Config) (state : SchedulerState) (waiter consumer : Nat) : Prop :=
  ∃ place, stuckAt config state waiter place ∧ isFull config state place ∧ place.consumer = consumer

def attempts (config : Config) (state : SchedulerState) (thread : Thread) (place : Place)
    (blocking : Bool) : Prop :=
  ∃ frame ∈ (state.callStack thread).head?, pushTarget config thread frame = some (place, blocking)

/-- The waits that an attempt to push begins: its own when the queue is full, and
those of executors that waited for the queue when the push takes its last room. -/
def beginsWait (config : Config) (state : SchedulerState) : Action → Nat → Nat → Prop
  | .push thread, waiter, consumer => ∃ place blocking,
      attempts config state thread place blocking ∧ (∀ index, place ≠ .localRing index) ∧
        place.consumer = consumer ∧
        (thread = .executor waiter ∧ blocking = true ∧ isFull config state place ∨
          stuckAt config state waiter place ∧
            (state.queues place).length + 1 = config.capacity place)
  | _, _, _ => False

/-- No wait begins while the consumer already waits, directly or through
others, for the executor that would wait for it. -/
def closesNoCircle (config : Config) (state : SchedulerState) (action : Action) : Prop :=
  ∀ waiter consumer, beginsWait config state action waiter consumer →
    ¬ ReflTransGen (waitsFor config state) consumer waiter

variable {config : Config} {state after : SchedulerState} {action : Action}

/-! ### Frames below the top -/

/-- A frame below the top is a `run` that made a call, or a push to the local
ring that executes another task meanwhile. -/
def restsBelow (config : Config) (thread : Thread) (frame : Frame) : Prop :=
  (∃ task, frame = .exec task .running) ∨
    ∃ index, pushTarget config thread frame = some (.localRing index, true)

def Layered (config : Config) (state : SchedulerState) : Prop :=
  ∀ thread, ∀ frame ∈ (state.callStack thread).tail, restsBelow config thread frame

theorem restsBelow_of_canCall {thread : Thread} (callable : canCall config state thread = true) :
    ∀ frame ∈ (state.callStack thread).head?, restsBelow config thread frame := by
  intro frame isTop
  cases thread with
  | external index =>
    have empty : state.callStack (.external index) = [] := by simpa [canCall] using callable
    simp [empty] at isTop
  | executor index =>
    simp only [canCall, Bool.and_eq_true] at callable
    have running := callable.2
    split at running
    · rename_i empty
      simp [empty] at isTop
    · rename_i task frames top
      simp only [top, head?_cons, mem_some_iff] at isTop
      exact .inl ⟨task, isTop.symm⟩
    · cases running

theorem Layered.enter (layered : Layered config state) {thread : Thread} {frame : Frame}
    (rests : ∀ below ∈ (state.callStack thread).head?, restsBelow config thread below)
    (callStack : after.callStack =
      update state.callStack thread (frame :: state.callStack thread)) :
    Layered config after := by
  intro other below inside
  rw [callStack] at inside
  by_cases here : other = thread
  · subst here
    rw [update_self, tail_cons] at inside
    cases stack : state.callStack other with
    | nil => simp [stack] at inside
    | cons head frames =>
      rw [stack] at inside
      rcases mem_cons.mp inside with rfl | deeper
      · exact rests below (by simp [stack])
      · exact layered other below (by simpa [stack] using deeper)
  · rw [update_of_ne here] at inside
    exact layered other below inside

theorem Layered.replace (layered : Layered config state) {thread : Thread} {frame : Frame}
    {frames : List Frame} (top : state.callStack thread = frame :: frames) (next : Option Frame)
    (callStack : after.callStack = update state.callStack thread (next.toList ++ frames)) :
    Layered config after := by
  intro other below inside
  rw [callStack] at inside
  by_cases here : other = thread
  · subst here
    rw [update_self] at inside
    refine layered other below ?_
    rw [top, tail_cons]
    cases next with
    | none => exact mem_of_mem_tail inside
    | some following => exact inside
  · rw [update_of_ne here] at inside
    exact layered other below inside

theorem Layered.move (layered : Layered config state)
    (move : Move config state action after) : Layered config after := by
  cases move with
  | call thread call callable _ _ | complete executor task callable
  | release thread task callable _ => exact layered.enter (restsBelow_of_canCall callable) rfl
  | pop place task queue _ occasion =>
    refine layered.enter (fun below isTop => ?_) rfl
    rcases occasion with ⟨_, empty⟩ | ⟨_, ⟨index, rfl⟩, _, frame, isFrame, targets⟩
    · simp [empty] at isTop
    · obtain rfl := mem_unique isTop isFrame
      exact .inr ⟨index, targets⟩
  | finish executor result task frames top | wait thread frame frames place top _ _ _
  | refuse thread frame frames place top _ _ => exact layered.replace top (some _) rfl
  | access thread spurious frame frames cell next top _ => exact layered.replace top next rfl
  | count thread frame next frames top _ =>
    exact layered.replace top (some next) (by simp)
  | push thread frame frames place blocking top _ _ => exact layered.replace top none rfl
  | spin => exact layered

theorem layered_of_reachable (reached : (system config).Reachable state) :
    Layered config state := by
  refine reached.invariant ?_ fun _ _ _ _ layered _ steps => layered.move (step_move steps)
  rintro state ⟨handled, rfl⟩ thread frame inside
  simp [start] at inside

/-! ### How waits begin -/

@[simp]
theorem pushTarget_markWaited (thread : Thread) (frame : Frame) :
    pushTarget config thread (markWaited frame) = pushTarget config thread frame := by
  unfold markWaited
  split <;> rfl

theorem Move.isFull_before (move : Move config state action after) {place : Place}
    (full : isFull config after place) : isFull config state place ∨
      ∃ thread blocking, action = .push thread ∧ attempts config state thread place blocking ∧
        (state.queues place).length + 1 = config.capacity place := by
  unfold isFull at full
  cases move with
  | pop popped task queue waiting _ =>
    left
    unfold isFull
    by_cases here : place = popped
    · subst here
      simp only [withStack_queues, withQueue_queues, update_self] at full
      rw [waiting, length_cons]
      omega
    · simpa [update_of_ne here] using full
  | push thread frame frames pushed blocking top targets room =>
    by_cases here : place = pushed
    · subst here
      right
      refine ⟨thread, blocking, rfl, ⟨frame, by simp [top], targets⟩, ?_⟩
      simp only [withStack_queues, withCell_queues, withQueue_queues, update_self,
        length_append, length_singleton] at full
      omega
    · left
      unfold isFull
      simpa [update_of_ne here] using full
  | count thread frame next frames _ _ =>
    left
    simpa [isFull] using full
  | _ => exact .inl full

theorem Move.stuckAt_before (move : Move config state action after)
    (layered : Layered config state) {waiter : Nat} {place : Place}
    (stuck : stuckAt config after waiter place) : stuckAt config state waiter place ∨
      action = .push (.executor waiter) ∧
        attempts config state (.executor waiter) place true ∧ isFull config state place := by
  obtain ⟨frame, isTop, targets, waited, shared⟩ := stuck
  by_cases acts : Thread.executor waiter = action.thread
  swap
  · rw [move.callStack_of_ne acts] at isTop
    exact .inl ⟨frame, isTop, targets, waited, shared⟩
  -- The frame below the top is never stuck.
  have revealed : ∀ below frames, state.callStack (.executor waiter) = below :: frames →
      frame ∈ frames.head? → False := by
    intro below frames top isBelow
    have inTail : frame ∈ (state.callStack (.executor waiter)).tail := by
      rw [top]
      exact mem_of_mem_head? isBelow
    rcases layered _ _ inTail with ⟨task, rfl⟩ | ⟨index, isLocal⟩
    · cases targets
    · rw [targets] at isLocal
      simp only [Option.some.injEq, Prod.mk.injEq, and_true] at isLocal
      exact shared index isLocal
  cases move with
  | call thread call _ _ _ | release thread task _ _ | complete executor task _ =>
    cases acts
    simp at isTop
    subst isTop
    cases targets
  | pop popped task queue waiting occasion =>
    have sameThread : Thread.executor waiter = .executor popped.consumer := by
      rcases occasion with ⟨rfl, _⟩ | ⟨rfl, _⟩ <;> exact acts
    rw [sameThread] at isTop
    simp at isTop
    subst isTop
    cases targets
  | finish executor result task frames top =>
    obtain rfl : waiter = executor := Thread.executor.inj acts
    simp at isTop
    subst isTop
    cases result <;> cases targets
  | access thread spurious accessed frames cell next top accesses =>
    obtain rfl : Thread.executor waiter = thread := acts
    cases next with
    | none => exact (revealed accessed frames top (by simpa using isTop)).elim
    | some following =>
      simp at isTop
      subst isTop
      rw [(Frame.access_fresh accesses).2] at waited
      cases waited
  | count thread counted next frames top counts =>
    obtain rfl : Thread.executor waiter = thread := acts
    simp at isTop
    subst isTop
    cases counts <;> cases waited
  | push thread pushed frames target blocking top _ _ =>
    obtain rfl : Thread.executor waiter = thread := acts
    exact (revealed pushed frames top (by simpa using isTop)).elim
  | wait thread attempted frames target top attemptTargets full _ =>
    obtain rfl : Thread.executor waiter = thread := acts
    simp at isTop
    subst isTop
    rw [pushTarget_markWaited, attemptTargets] at targets
    simp only [Option.some.injEq, Prod.mk.injEq, and_true] at targets
    subst targets
    exact .inr ⟨rfl, ⟨attempted, by simp [top], attemptTargets⟩, full⟩
  | refuse thread refused frames target top attemptTargets _ =>
    obtain rfl : Thread.executor waiter = thread := acts
    obtain ⟨call, previous, tried, rfl⟩ := post_of_pushTarget attemptTargets
    simp at isTop
    subst isTop
    cases previous <;> cases waited
  | spin thread => exact .inl ⟨frame, isTop, targets, waited, shared⟩

theorem Move.waitsFor_before (move : Move config state action after)
    (layered : Layered config state) {waiter consumer : Nat}
    (waits : waitsFor config after waiter consumer) :
    waitsFor config state waiter consumer ∨ beginsWait config state action waiter consumer := by
  obtain ⟨place, stuck, full, rfl⟩ := waits
  have shared : ∀ index, place ≠ .localRing index := stuck.choose_spec.2.2.2
  rcases move.stuckAt_before layered stuck with wasStuck | ⟨rfl, attempt, wasFull⟩
  · rcases move.isFull_before full with wasFull | ⟨thread, blocking, rfl, attempt, last⟩
    · exact .inl ⟨place, wasStuck, wasFull, rfl⟩
    · exact .inr ⟨place, blocking, attempt, shared, rfl, .inr ⟨wasStuck, last⟩⟩
  · exact .inr ⟨place, true, attempt, shared, rfl, .inl ⟨rfl, rfl, wasFull⟩⟩

theorem beginsWait_consumer {waiter consumer other another : Nat}
    (begins : beginsWait config state action waiter consumer)
    (alsoBegins : beginsWait config state action other another) : consumer = another := by
  cases action with
  | push thread =>
    obtain ⟨place, blocking, ⟨frame, isTop, targets⟩, _, rfl, _⟩ := begins
    obtain ⟨place', blocking', ⟨frame', isTop', targets'⟩, _, rfl, _⟩ := alsoBegins
    obtain rfl := mem_unique isTop isTop'
    rw [targets] at targets'
    obtain ⟨rfl, _⟩ := Prod.mk.inj (Option.some.inj targets')
    rfl
  | _ => exact begins.elim

theorem acyclic_of_reachable
    (reached : (system config).ReachableUnder (closesNoCircle config) state) :
    Acyclic (waitsFor config state) := by
  induction reached with
  | start starts =>
    obtain ⟨handled, rfl⟩ := starts
    intro vertex cycle
    obtain ⟨_, ⟨place, ⟨frame, isTop, _⟩, _⟩, _⟩ := Relation.TransGen.head'_iff.mp cycle
    simp [start] at isTop
  | @next before after action reachedBefore permitted steps acyclic =>
    have layered := layered_of_reachable reachedBefore.reachable
    refine acyclic.add_edges (fun _ _ => (step_move steps).waitsFor_before layered) ?_ permitted
    exact fun _ _ _ _ => beginsWait_consumer

def consumerIdle (config : Config) (state : SchedulerState) : Action → Prop
  | .push thread => ∀ frame ∈ (state.callStack thread).head?,
      ∀ target ∈ pushTarget config thread frame, state.callStack (.executor target.1.consumer) = []
  | _ => True

instance (action : Action) : Decidable (consumerIdle config state action) :=
  match action with
  | .push _ => inferInstanceAs (Decidable (∀ frame ∈ _, ∀ target ∈ _, _))
  | .call _ _ | .complete _ _ | .release _ _ | .pop _ | .finish _ _ | .access _ _
  | .count _ => inferInstanceAs (Decidable True)

theorem closesNoCircle_of_consumerIdle (idle : consumerIdle config state action) :
    closesNoCircle config state action := by
  intro waiter consumer begins circle
  cases action with
  | push thread =>
    obtain ⟨place, blocking, ⟨frame, isTop, targets⟩, _, rfl, waits⟩ := begins
    have empty : state.callStack (.executor place.consumer) = [] := idle frame isTop _ targets
    rcases Relation.ReflTransGen.cases_head circle with same | ⟨_, ⟨_, stuck, _⟩, _⟩
    · rcases waits with ⟨rfl, _⟩ | ⟨⟨_, isStuck, _⟩, _⟩
      · simp [← same, empty] at isTop
      · simp [← same, empty] at isStuck
    · obtain ⟨_, isStuck, _⟩ := stuck
      simp [empty] at isStuck
  | _ => exact begins

def orderedPost (task : TaskId) (target : Nat) : PostCall :=
  { postOf task target with mode := .ordered }

/-- Task 0 runs on executor 0 and posts three tasks to the external queue of
the target, which holds two. -/
def orderedFanout (target : Nat) : List Action :=
  firstPost (.external 0) (postOf 0 0) ++ beginRun (.external 0) ++
    firstPost (.executor 0) (orderedPost 1 target) ++
    firstPost (.executor 0) (orderedPost 2 target) ++ firstPost (.executor 0) (orderedPost 3 target)

theorem waitsFor_of_orderedPost {target : Nat} (top : (state.callStack (.executor 0)).head? =
      some (.post (orderedPost 3 target) (.push .created true)))
    (blocks : config.runtimeQueueFullPolicy = .yield)
    (full : config.externalCapacity ≤ (state.queues (.external target)).length) :
    waitsFor config state 0 target :=
  ⟨.external target, ⟨_, top, by simp [pushTarget, readyRoute, postBlocks, orderedPost,
    postOf, blocks], rfl, by simp⟩, full, rfl⟩

theorem one_le_maxThreads : 1 ≤ 65535 := by decide

def oneExecutor : Config :=
  { twoExecutors .yield with threadCount := 1, threadCount_le := one_le_maxThreads }

end Scheduler
end AsyncFlow
