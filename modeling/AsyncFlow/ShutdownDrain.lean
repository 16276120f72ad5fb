import AsyncFlow.Runtime
import AsyncFlow.TaskAccounting
import AsyncFlow.BlockingWait
import AsyncFlow.TaskLifetime

/-!
# Shutdown drains the runtime

When `shutdown` under `WaitForTasks` reads zero unfinished tasks, external posts
are kept out by the gate, and no task is running.  What remains is a channel
callback in `poll_io`: it belongs to no task, and a post it makes is still
admitted.  When no callback schedules a new task after the zero reading, every
task with an accepted post is `Done` when `shutdown` returns.
-/

namespace AsyncFlow

open Function List Option

/-- Between the zero reading of `wait_for_idle` and the start of the next
executors. -/
def ControllerPc.closed : ControllerPc → Bool
  | .requestStop _ | .join _ | .clear | .storeStopped | .initGeneration | .initQueues
  | .initExecutors => true
  | .idle | .storeRunning | .scan _ | .waitForIdle => false

namespace Gate

variable {threadCount : Nat} {state after : GateState} {action : Action}

/-- No new task may be scheduled: `wait_for_idle` has read zero, or the runtime
is stopped. -/
def closed (state : GateState) : Prop :=
  state.status = .stopped ∨ ∃ controller, (state.controllers controller).closed = true

theorem GateInv.not_closed (inv : GateInv threadCount state) {thread : Nat}
    (entry : (state.posters thread).entry ≠ none) : ¬ closed state := by
  have entered : ∃ target during, state.posters thread = .entered target during := by
    cases at_ : state.posters thread <;> simp [at_, PosterPc.entry] at entry ⊢
  obtain ⟨target, during, isEntered⟩ := entered
  have unscanned := (inv.posters thread).passed target (by rw [isEntered]; rfl)
    (by rw [isEntered]; rfl)
  rintro (isStopped | ⟨controller, isClosed⟩)
  · rcases unscanned.2 with isRunning | ⟨isStopping, _⟩ <;> simp_all
  · have busy : state.controllers controller ≠ .idle := by
      intro isIdle
      rw [isIdle] at isClosed
      cases isClosed
    obtain ⟨reached, _, scans⟩ := unscanned.scan inv.controlled busy
    rw [scans] at isClosed
    cases isClosed

theorem entry_kept (steps : step threadCount state action = some after) {thread : Nat}
    (entry : (state.posters thread).entry ≠ none) :
    (after.posters thread).entry ≠ none ∨ action = .poster thread := by
  by_cases moved : action = .poster thread
  · exact .inr moved
  refine .inl ?_
  cases action <;>
    simp only [step, stepPoster, stepPush, stepInit, stepShutdown, stepController, withPoster,
      withController, enterPost, leavePost] at steps <;>
    repeat' split at steps
  all_goals cases steps <;> grind [update_apply, PosterPc.entry]

theorem closed_before (steps : step threadCount state action = some after)
    (isClosed : closed after) : closed state ∨ ∃ controller, action = .controller controller ∧
        state.controllers controller = .waitForIdle := by
  unfold closed at isClosed ⊢
  cases action <;>
    simp only [step, stepPoster, stepPush, stepInit, stepShutdown, stepController, withPoster,
      withController, enterPost, leavePost] at steps <;>
    repeat' split at steps
  all_goals cases steps <;> grind [update_apply, ControllerPc.closed]

end Gate

namespace Scheduler

variable {config : Config} {state after : SchedulerState} {action : Action} {frame : Frame}

theorem post_of_access {call : PostCall} {pc : PostPc} {invalidThread : Nat} {cell cell' : TaskCell}
    {spurious : Bool}
    (accesses : frame.access invalidThread cell spurious = some (cell', some (.post call pc))) :
    ∃ call pc, frame = .post call pc := by
  cases frame with
  | post call pc => exact ⟨call, pc, rfl⟩
  | exec task pc => cases pc <;> simp only [Frame.access, execAccess] at accesses <;> grind
  | complete task pc | release task pc =>
    cases pc <;> simp only [Frame.access, completeAccess, releaseAccess] at accesses <;>
      grind

def posting (state : SchedulerState) (thread : Thread) : Prop :=
  ∃ call pc, .post call pc ∈ state.callStack thread

variable {thread : Thread}

theorem Move.posting_before (move : Move config state action after) (posts : posting after thread) :
    posting state thread ∨ ∃ call, action = .call thread call := by
  obtain ⟨call, pc, live⟩ := posts
  have wasPosting : ∀ {actor : Thread} {frame : Frame} {frames : List Frame},
      state.callStack actor = frame :: frames → ∀ new : List Frame,
      .post call pc ∈ update state.callStack actor (new ++ frames) thread →
      (.post call pc ∈ new → ∃ call pc, frame = .post call pc) → posting state thread := by
    intro actor frame frames top new inside follows
    rcases (ReplacesTop.top top new).mem_at inside with old | ⟨rfl, isNew⟩
    · exact ⟨call, pc, old⟩
    · obtain ⟨earlier, earlierPc, rfl⟩ := follows isNew
      exact ⟨earlier, earlierPc, by simp [top]⟩
  cases move with
  | call actor made _ _ _ =>
    rcases (ReplacesTop.push state.callStack actor _).mem_at live with old | ⟨rfl, _⟩
    · exact .inl ⟨call, pc, old⟩
    · exact .inr ⟨made, rfl⟩
  | complete executor task _ | release actor task _ _ | pop place task queue _ _ =>
    rcases (ReplacesTop.push state.callStack _ _).mem_at live with old | ⟨_, isNew⟩
    · exact .inl ⟨call, pc, old⟩
    · simp at isNew
  | finish executor result task frames top =>
    exact .inl (wasPosting top [_] live (by simp))
  | access actor spurious frame frames cell next top accesses =>
    refine .inl (wasPosting top next.toList live fun isNew => ?_)
    rw [mem_toList.mp isNew] at accesses
    exact post_of_access accesses
  | count actor frame next frames top counts =>
    rw [withStack_callStack, countAfter_callStack] at live
    refine .inl (wasPosting top [_] live fun isNew => ?_)
    cases counts <;> simp_all
  | push actor frame frames place blocking top _ _ =>
    exact .inl (wasPosting top [] live (by simp))
  | wait actor frame frames place top _ _ _ =>
    refine .inl (wasPosting top [_] live fun isNew => ?_)
    rw [mem_singleton] at isNew
    unfold markWaited at isNew
    split at isNew
    · exact ⟨_, _, rfl⟩
    · cases isNew
    · exact ⟨call, pc, isNew.symm⟩
  | refuse actor frame frames place top targets _ =>
    refine .inl (wasPosting top [_] live fun _ => ?_)
    obtain ⟨earlier, previous, waited, rfl⟩ := post_of_pushTarget targets
    exact ⟨_, _, rfl⟩
  | spin => exact .inl ⟨call, pc, live⟩

theorem Move.counted_before (move : Move config state action after) :
    List.Sublist after.counted state.counted ∨ ∃ thread call frames, action = .count thread ∧
        state.callStack thread = .post call .started :: frames ∧
        after.counted.length ≤ state.counted.length + 1 := by
  cases move with
  | count thread frame next frames top counts =>
    cases counts with
    | started call =>
      refine .inr ⟨thread, call, frames, rfl, top, ?_⟩
      simp only [withStack, countAfter, countStarted]
      split <;> simp
    | finished call | doneFinished task =>
      refine .inl ?_
      simp only [withStack, countAfter, countFinished]
      split
      · exact erase_sublist
      · exact List.Sublist.refl _
  | _ => exact .inl (List.Sublist.refl _)

theorem Occupancy.owner_unique (occupancy : Occupancy state) {other : Thread} {another : Frame}
    (live : frame ∈ state.callStack thread) (alsoLive : another ∈ state.callStack other)
    (sameTask : frame.task = another.task) (owns : frame.ownedState ≠ none)
    (alsoOwns : another.ownedState ≠ none) : frame = another := by
  obtain ⟨known, knows⟩ := ne_none_iff_exists'.mp owns
  obtain ⟨alsoKnown, alsoKnows⟩ := ne_none_iff_exists'.mp alsoOwns
  have sameThread : thread = other := Sum.inr_injective (occupancy.exclusive.eq_of_mem
    (mem_held_of_owned live knows) (sameTask ▸ mem_held_of_owned alsoLive alsoKnows))
  subst sameThread
  have owned : frame.owned = some frame.task := by simp [Frame.owned, knows]
  have alsoOwned : another.owned = some frame.task := by simp [Frame.owned, alsoKnows, sameTask]
  exact eq_of_nodup_filterMap (occupancy.exclusive.nodup (.inr thread)) live alsoLive owned
    alsoOwned

section

variable (policy : config.shutdownPolicy = .waitForTasks)
  (reached : (system config).Reachable state) (live : frame ∈ state.callStack thread)

include policy reached live

theorem owned_counted {known : TaskState} (knows : frame.ownedState = some known)
    (notDone : known ≠ .done) (counts : frame.uncounted = false) : frame.task ∈ state.counted := by
  have occupancy := occupancy_of_reachable reached
  have isKnown : (state.cells frame.task).state = known :=
    occupancy.owned thread frame known live knows
  rw [(accounted_of_reachable policy reached).counted]
  refine .inl ⟨fun isCreated => ?_, fun isDone => ?_, ?_⟩
  · rw [← isKnown, show (state.cells frame.task).state = .created from isCreated] at knows
    exact frame.ownedState_not_idle.1 knows
  · exact notDone (isKnown.symm.trans isDone)
  · rintro ⟨other, ⟨sameTask, elsewhere, alsoLive⟩, uncounted⟩
    have same := occupancy.owner_unique live alsoLive sameTask.symm (by simp [knows])
      (by simp [Frame.ownedState_of_uncounted uncounted])
    rw [← same, counts] at uncounted
    cases uncounted

theorem restsBelow_counted (rests : restsBelow config thread frame)
    : frame.task ∈ state.counted := by
  rcases rests with ⟨task, rfl⟩ | ⟨index, targets⟩
  · exact owned_counted policy reached live rfl (by simp) rfl
  · have pushes := pushes_of_pushTarget targets
    refine owned_counted policy reached live (Frame.ownedState_of_pushes pushes) (by simp) ?_
    unfold Frame.pushes at pushes
    split at pushes <;> first | rfl | cases pushes

end

end Scheduler

namespace Runtime

variable {config : Config} {state after : RuntimeState}

def callbackStarts (state : RuntimeState) : Action → Bool
  | .scheduler (.count (.executor executor)) =>
    match state.scheduler.callStack (.executor executor) with
    | [.post _ .started] => true
    | _ => false
  | _ => false

/-- No callback schedules a new task after the zero reading. -/
def noLateStart (state : RuntimeState) (action : Action) : Prop :=
  callbackStarts state action = true → ¬ Gate.closed state.gate

/-- Fewer than 2 ^ 32 tasks are unfinished at a time, and fewer than 2 ^ 32
external posts are under way. -/
def countsFit (state : RuntimeState) : Action → Prop
  | .gate action => Gate.countersFit state.gate action
  | .scheduler (.count _) => state.scheduler.counted.length + 1 < 2 ^ 32
  | _ => True

instance (action : Action) : Decidable (countsFit state action) :=
  match action with
  | .gate action => inferInstanceAs (Decidable (Gate.countersFit state.gate action))
  | .scheduler (.count _) => inferInstanceAs (Decidable (_ < _))
  | .scheduler (.call _ _) | .scheduler (.complete _ _) | .scheduler (.release _ _)
  | .scheduler (.pop _) | .scheduler (.finish _ _) | .scheduler (.access _ _)
  | .scheduler (.push _) | .loop _ _ => inferInstanceAs (Decidable True)

structure DrainInv (config : Config) (state : RuntimeState) : Prop where
  scheduler : (Scheduler.system config).Reachable state.scheduler
  gate : Gate.GateInv config.threadCount state.gate
  posters : ∀ thread, Scheduler.posting state.scheduler (.external thread) →
    (state.gate.posters thread).entry ≠ none
  few : state.scheduler.counted.length < 2 ^ 32
  drained : Gate.closed state.gate → state.scheduler.counted = []

theorem controllerEffect_gate (pc : ControllerPc) :
    (controllerEffect config state pc).gate = state.gate := by
  cases pc with
  | requestStop executor =>
    simp only [controllerEffect]
    split <;> rfl
  | _ => rfl

theorem stepScheduler_spec {action : Scheduler.Action}
    (steps : stepScheduler config state action = some after) :
    Scheduler.step config state.scheduler action = some after.scheduler ∧
      (after.gate = state.gate ∨ ∃ thread,
        Gate.step config.threadCount state.gate (.push thread) = some after.gate) ∧
      ∀ thread call, action = .call (.external thread) call →
        (after.gate.posters thread).entry ≠ none := by
  cases action with
  | pop place =>
    simp only [stepScheduler, bind_eq_some_iff, map_eq_some_iff] at steps
    obtain ⟨phase, _, middle, ⟨scheduler, schedulerSteps, rfl⟩, rfl⟩ := steps
    exact ⟨schedulerSteps, .inl rfl, by simp⟩
  | push thread =>
    cases thread with
    | external thread =>
      simp only [stepScheduler, bind_eq_some_iff, map_eq_some_iff] at steps
      obtain ⟨gate, gateSteps, middle, ⟨scheduler, schedulerSteps, rfl⟩, rfl⟩ := steps
      exact ⟨schedulerSteps, .inr ⟨thread, gateSteps⟩, by simp⟩
    | executor executor =>
      simp only [stepScheduler, map_eq_some_iff] at steps
      grind [withScheduler]
  | call thread call | release thread task =>
    cases thread <;>
      simp only [stepScheduler, ite_none_right_eq_some, map_eq_some_iff] at steps <;>
      grind [withScheduler]
  | _ =>
    simp only [stepScheduler, ite_none_right_eq_some, map_eq_some_iff] at steps
    grind [withScheduler]

section

variable (policy : config.shutdownPolicy = .waitForTasks) (inv : DrainInv config state)

include policy inv

theorem DrainInv.started_callback (isClosed : Gate.closed state.gate) {thread : Thread}
    {call : PostCall} {frames : List Frame}
    (top : state.scheduler.callStack thread = .post call .started :: frames) :
    callbackStarts state (.scheduler (.count thread)) = true := by
  cases thread with
  | external index =>
    have posting : Scheduler.posting state.scheduler (.external index) :=
      ⟨call, .started, by simp [top]⟩
    exact absurd isClosed (inv.gate.not_closed (inv.posters index posting))
  | executor index =>
    cases frames with
    | nil => simp [callbackStarts, top]
    | cons below frames =>
      have rests := Scheduler.layered_of_reachable inv.scheduler (.executor index) below
        (by simp [top])
      have counted := Scheduler.restsBelow_counted policy inv.scheduler
        (by simp [top] : below ∈ state.scheduler.callStack (.executor index)) rests
      rw [inv.drained isClosed] at counted
      cases counted

theorem DrainInv.closed_empty (isClosed : Gate.closed state.gate) :
    state.scheduler.unfinished = 0 ∧ state.scheduler.counted = [] ∧
      ∀ place, state.scheduler.queues place = [] := by
  have drained := inv.drained isClosed
  refine ⟨?_, drained, fun place => ?_⟩
  · rw [(Scheduler.accounted_of_reachable policy inv.scheduler).number, drained]
    rfl
  · refine eq_nil_iff_forall_not_mem.mpr fun task waiting => ?_
    have counted := Scheduler.queued_counted policy inv.scheduler waiting
    rw [drained] at counted
    cases counted

theorem DrainInv.controllerEffect_scheduler (controller : Nat) (gate : GateState) :
    (controllerEffect config { state with gate := gate }
      (state.gate.controllers controller)).scheduler = state.scheduler := by
  have unchanged : ∀ isClosed : (state.gate.controllers controller).closed = true,
      _ := fun isClosed => inv.closed_empty policy (.inr ⟨controller, isClosed⟩)
  have noQueues : (∀ place, state.scheduler.queues place = []) →
      (fun _ => []) = state.scheduler.queues := fun empty => funext fun place => (empty place).symm
  cases at_ : state.gate.controllers controller with
  | initQueues =>
    obtain ⟨_, _, empty⟩ := unchanged (by rw [at_]; rfl)
    simp only [controllerEffect, withScheduler, noQueues empty]
  | clear =>
    obtain ⟨zero, noTask, empty⟩ := unchanged (by rw [at_]; rfl)
    simp only [controllerEffect, withScheduler, noQueues empty]
    rw [← zero, ← noTask]
  | requestStop executor =>
    simp only [controllerEffect]
    split <;> rfl
  | idle | initGeneration | initExecutors | storeRunning | scan _ | waitForIdle | join _
  | storeStopped => rfl

theorem DrainInv.stepGate_spec {action : Gate.Action}
    (steps : stepGate config state action = some after) :
    Gate.step config.threadCount state.gate action = some after.gate ∧
      after.scheduler = state.scheduler ∧
      (∀ thread, action = .poster thread → posterReady state thread = true) ∧
      ∀ controller, action = .controller controller →
        controllerReady config state (state.gate.controllers controller) = true := by
  cases action <;> simp only [stepGate, ite_none_right_eq_some, map_eq_some_iff,
    reduceCtorEq] at steps
  case poster thread =>
    obtain ⟨ready, middle, ⟨gate, gateSteps, rfl⟩, rfl⟩ := steps
    exact ⟨gateSteps, rfl, by rintro _ ⟨⟩; exact ready, by simp⟩
  case controller controller =>
    obtain ⟨ready, middle, ⟨gate, gateSteps, rfl⟩, rfl⟩ := steps
    rw [controllerEffect_gate, inv.controllerEffect_scheduler policy]
    exact ⟨gateSteps, rfl, by simp, by rintro _ ⟨⟩; exact ready⟩
  case post thread target =>
    obtain ⟨_, gate, gateSteps, rfl⟩ := steps
    exact ⟨gateSteps, rfl, by simp, by simp⟩
  case init controller | shutdown controller =>
    obtain ⟨gate, gateSteps, rfl⟩ := steps
    exact ⟨gateSteps, rfl, by simp, by simp⟩

theorem DrainInv.gateStep {action : Gate.Action} (fits : Gate.countersFit state.gate action)
    (steps : stepGate config state action = some after) : DrainInv config after := by
  obtain ⟨gateSteps, sameScheduler, posterIsReady, controllerIsReady⟩ :=
    inv.stepGate_spec policy steps
  refine ⟨sameScheduler ▸ inv.scheduler, inv.gate.step fits gateSteps, ?_,
    sameScheduler ▸ inv.few, ?_⟩
  · intro thread posting
    rw [sameScheduler] at posting
    have entry := inv.posters thread posting
    refine (Gate.entry_kept gateSteps entry).resolve_right ?_
    -- A post does not leave the gate before its schedule is over.
    rintro rfl
    have ready := posterIsReady thread rfl
    obtain ⟨call, pc, live⟩ := posting
    unfold posterReady at ready
    split at ready
    · simp_all
    · cases at_ : state.gate.posters thread <;> simp_all [PosterPc.entry]
  · intro isClosed
    rw [sameScheduler]
    rcases Gate.closed_before gateSteps isClosed with wasClosed | ⟨controller, rfl, isWaiting⟩
    · exact inv.drained wasClosed
    · have ready := controllerIsReady controller rfl
      have zero : state.scheduler.unfinished = 0 := by
        simpa [isWaiting, controllerReady, policy] using ready
      rw [(Scheduler.accounted_of_reachable policy inv.scheduler).number] at zero
      have value := congrArg BitVec.toNat zero
      rw [BitVec.toNat_ofNat, Nat.mod_eq_of_lt inv.few] at value
      exact eq_nil_of_length_eq_zero value

theorem DrainInv.schedulerStep {action : Scheduler.Action}
    (fits : countsFit state (.scheduler action)) (inTime : noLateStart state (.scheduler action))
    (steps : stepScheduler config state action = some after) : DrainInv config after := by
  obtain ⟨schedulerSteps, gateMoves, calls⟩ := stepScheduler_spec steps
  have move := Scheduler.step_move schedulerSteps
  have gateInv : Gate.GateInv config.threadCount after.gate := by
    rcases gateMoves with same | ⟨thread, gateSteps⟩
    · exact same ▸ inv.gate
    · exact inv.gate.step (show Gate.countersFit state.gate (.push thread) from trivial) gateSteps
  obtain ⟨pushes, sameGate⟩ : ∃ pushes, after.gate = { state.gate with pushes := pushes } := by
    rcases gateMoves with same | ⟨thread, gateSteps⟩
    · exact ⟨_, same⟩
    · grind [Gate.step, Gate.stepPush]
  have wasClosed : Gate.closed after.gate → Gate.closed state.gate := by
    rw [sameGate]
    exact id
  refine ⟨.next inv.scheduler trivial schedulerSteps, gateInv, fun thread posting => ?_, ?_, ?_⟩
  · rcases move.posting_before posting with wasPosting | ⟨call, rfl⟩
    · rw [sameGate]
      exact inv.posters thread wasPosting
    · exact calls thread call rfl
  · rcases move.counted_before with fewer | ⟨thread, call, frames, rfl, _, length⟩
    · exact fewer.length_le.trans_lt inv.few
    · exact length.trans_lt fits
  · intro isClosed
    rcases move.counted_before with fewer | ⟨thread, call, frames, rfl, top, _⟩
    · rw [inv.drained (wasClosed isClosed)] at fewer
      exact sublist_nil.mp fewer
    · have late := inv.started_callback policy (wasClosed isClosed) top
      exact absurd (wasClosed isClosed) (inTime late)

end

def drains (state : RuntimeState) (action : Action) : Prop :=
  noLateStart state action ∧ countsFit state action

theorem drainInv_of_reachable (policy : config.shutdownPolicy = .waitForTasks)
    (reached : (system config).ReachableUnder drains state) : DrainInv config state := by
  refine reached.invariant ?_ fun before action after _ inv permitted steps => ?_
  · rintro state ⟨handled, rfl⟩
    refine ⟨.start ⟨handled, rfl⟩, Gate.gateInv_of_reachable (fun _ _ fits => fits) (.start rfl),
      ?_, ?_, fun _ => rfl⟩
    · simp [Scheduler.posting, start, Scheduler.start]
    · simp [start, Scheduler.start]
  · obtain ⟨inTime, fits⟩ := permitted
    cases action with
    | gate action => exact inv.gateStep policy fits steps
    | scheduler action => exact inv.schedulerStep policy fits inTime steps
    | loop executor found =>
      simp only [system, step, stepLoop, ite_none_right_eq_some, map_eq_some_iff] at steps
      obtain ⟨_, phase, _, rfl⟩ := steps
      exact { inv with }

/-- Under `WaitForTasks`, when no callback schedules a new task after the zero
reading of `wait_for_idle`: once `shutdown` has returned, every task of which a
post was accepted is `Done`, and no task is in the queues that it clears. -/
theorem shutdown_drains (policy : config.shutdownPolicy = .waitForTasks)
    (reached : (system config).ReachableUnder drains state) :
    (state.gate.status = .stopped → ∀ task, (state.scheduler.cells task).promises ≠ [] →
      (state.scheduler.cells task).state = .done) ∧
    ∀ controller, state.gate.controllers controller = .clear →
      ∀ place, state.scheduler.queues place = [] := by
  have inv := drainInv_of_reachable policy reached
  refine ⟨fun isStopped task promised => ?_, fun controller atClear => ?_⟩
  · refine (Scheduler.promised_counted policy inv.scheduler promised).resolve_left ?_
    rw [inv.drained (.inl isStopped)]
    exact not_mem_nil
  · exact (inv.closed_empty policy (.inr ⟨controller, by rw [atClear]; rfl⟩)).2.2

def ofGate (actions : List Gate.Action) : List Action :=
  actions.map .gate

def ofScheduler (actions : List Scheduler.Action) : List Action :=
  actions.map .scheduler

/-- With two executors: the loop of one from its top, with empty queues, to the
poll or the return. -/
def runLoop (executor : Nat) : List Action :=
  List.replicate 5 (.loop executor false)

def runStop : List Action :=
  ofGate (Gate.runAwait 2 ++ List.replicate 4 (.controller 0))

def runJoin : List Action :=
  ofGate (List.replicate 3 (.controller 0))

def drainedRun : List Action :=
  ofGate (Gate.runInit ++ Gate.runEnter 0 0) ++
    ofScheduler (Scheduler.firstPost (.external 0) (Scheduler.postOf 0 0)) ++ ofGate [.poster 0] ++
    ofScheduler (Scheduler.beginRun (.external 0) ++ Scheduler.finishDone 0) ++
    runStop ++ runLoop 0 ++ runLoop 0 ++ runLoop 1 ++ runJoin ++
    ofGate (List.replicate 2 (.controller 0))

theorem drainedRun_done :
    ∃ state, (system (Scheduler.twoExecutors .reject)).ReachableUnder drains state ∧
      (state.gate.status = .stopped ∧ (state.scheduler.cells 0).promises ≠ []) ∧
      (state.scheduler.cells 0).state = .done := by
  obtain ⟨state, reached, observed⟩ :=
    (system (Scheduler.twoExecutors .reject)).exists_reachableUnder
    (fun state action => callbackStarts state action = false ∧ countsFit state action)
    ⟨fun _ => true, rfl⟩ drainedRun
    (fun state => state.gate.status = .stopped ∧ (state.scheduler.cells 0).promises ≠ [])
    (by decide)
  have reached : (system (Scheduler.twoExecutors .reject)).ReachableUnder drains state :=
    reached.mono fun state action permitted =>
      ⟨fun starts => by simp [permitted.1] at starts, permitted.2⟩
  exact ⟨state, reached, observed, (shutdown_drains rfl reached).1 observed.1 0 observed.2⟩

/-- Executor 0 is in `poll_io` when `shutdown` reads zero; a callback then posts a
task to executor 1, which has returned already. -/
def lateCallback : List Action :=
  ofGate Gate.runInit ++ runLoop 0 ++ runStop ++ runLoop 1 ++
    ofScheduler (Scheduler.firstPost (.executor 0) (Scheduler.postOf 0 1)) ++
    .loop 0 true :: runLoop 0 ++ runJoin

/-- The post was accepted, and its task is in a queue that `shutdown` clears. -/
theorem late_callback_leaves_task :
    (∃ state, (system (Scheduler.twoExecutors .reject)).ReachableUnder countsFit state ∧
      state.gate.controllers 0 = .clear ∧ state.scheduler.queues (.spsc 0 1) = [0]) ∧
    ∃ state, (system (Scheduler.twoExecutors .reject)).ReachableUnder countsFit state ∧
      state.gate.status = .stopped ∧ (state.scheduler.cells 0).promises ≠ [] ∧
      (state.scheduler.cells 0).state = .queued := by
  constructor
  · exact (system (Scheduler.twoExecutors .reject)).exists_reachableUnder
      countsFit ⟨fun _ => true, rfl⟩ lateCallback
      _ (by decide)
  · exact (system (Scheduler.twoExecutors .reject)).exists_reachableUnder
      countsFit ⟨fun _ => true, rfl⟩ (lateCallback ++ ofGate (List.replicate 2 (.controller 0)))
      _ (by decide)

end Runtime

end AsyncFlow
