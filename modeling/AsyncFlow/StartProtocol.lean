import AsyncFlow.StartSteps

/-!
# The start protocol of listeners

A listener is active only when every shard reported success for its last start,
provided that it is never started while a message about an earlier start is on its
way.  The code does not ensure this.
-/

namespace AsyncFlow

open List Option

namespace StartProtocol

open ServerState Server

variable {config : ServerConfig} {env : ControlEnv} {state after : ServerState}
  {id : ListenerId} {entry : ListenerEntry} {slot shard : Nat}

def Quiet (config : ServerConfig) (state : ServerState) (id : ListenerId) : Prop :=
  ∀ shard < config.threadCount, state.messages id shard = []

instance : Decidable (Quiet config state id) :=
  inferInstanceAs (Decidable (∀ shard < config.threadCount, state.messages id shard = []))

theorem Inv.quiet (inv : Inv config none state) (quiet : Quiet config state id) (shard : Nat) :
    state.messages id shard = [] := by
  by_cases inside : shard < config.threadCount
  · exact quiet shard inside
  · exact inv.outside id shard (Nat.le_of_not_lt inside)

/-- A listener is started only when no message about it is on its way, and the
runtime refuses no result. -/
def startsFresh (config : ServerConfig) (state : ServerState) : Action → Prop
  | .addListener _ _ => state.running = true → Quiet config state state.acquireListenerSlot.1
  | .start _ => state.running = false →
      ∀ listener ∈ state.listeners, ∀ entry ∈ listener, Quiet config state entry.id
  | .runTask _ _ accepted _ => accepted = true
  | _ => True

instance : ∀ action, Decidable (startsFresh config state action)
  | .addListener _ _ => inferInstanceAs (Decidable (_ → _))
  | .start _ => inferInstanceAs (Decidable (_ → _))
  | .runTask _ _ _ _ => inferInstanceAs (Decidable (_ = _))
  | .removeListener _ _ _ | .stop _ | .handleResult _ _ | .accept _ _ _ _ | .adopt _ _ _
  | .close _ _ => .isTrue trivial

section

variable (inv : Inv config none state)

include inv

theorem inv_addListener {listener : ListenerConfig}
    (fresh : state.running = true → Quiet config state state.acquireListenerSlot.1) :
    Inv config none (addListener config env state listener).2 := by
  unfold addListener
  split
  · exact inv
  next valid =>
    have stored : Inv config none (state.storeEntry listener).2 := by
      refine inv_storeEntry inv ?_
      simp only [Bool.or_eq_true, Bool.not_eq_true', not_or, Bool.not_eq_false] at valid
      exact valid.1
    dsimp only
    split
    · exact stored
    next isRunning =>
      obtain ⟨started, -⟩ : Inv config none (startListenerSlot config env
          (state.storeEntry listener).2 (state.storeEntry listener).1.slot).2 ∧ _ := by
        refine startListenerSlot_spec stored fun entry present shard => ?_
        have isSlot : (state.storeEntry listener).1.slot = state.acquireListenerSlot.1.slot := rfl
        rw [storeEntry_entryAt, if_pos isSlot] at present
        cases present
        refine ((keepsStarts_storeEntry listener).messages _ _).trans (inv.quiet (fresh ?_) shard)
        simpa using isRunning
      split
      · exact started
      split
      · exact inv_releaseListenerSlot started _ _
      · exact started

theorem inv_start (fresh : state.running = false →
      ∀ listener ∈ state.listeners, ∀ entry ∈ listener, Quiet config state entry.id) :
    Inv config none (start config env state).2 := by
  unfold start
  split
  · exact inv
  next isRunning =>
    have notRunning : state.running = false := by simpa using isRunning
    split
    · exact inv
    have launched : Inv config none { state with running := true } := by
      refine ⟨⟨inv.free.nodup, inv.free.vacant⟩, inv.slots, fun slot entry _ present => ?_,
        inv.bounded, inv.reports, inv.outside⟩
      have before := inv.entries slot entry nofun present
      refine { before with starting := fun isStarting => ?_, active := fun isActive => ?_ }
      · obtain ⟨_, _, starting⟩ := before.starting isStarting
        exact absurd (notRunning.symm.trans starting.running) nofun
      · obtain ⟨attempt, isAttempt, active⟩ := before.active isActive
        exact ⟨attempt, isAttempt, { active with }⟩
    refine inv_startSlots launched ((nodup_range).filter _) fun slot _ entry present shard => ?_
    exact inv.quiet (fresh notRunning (some entry) (mem_listeners present) entry rfl) shard

theorem inv_connects (connects : Connects state after) : Inv config none after := by
  obtain ⟨_, rfl | ⟨_, _, _, _, rfl⟩⟩ := connects <;>
    exact inv.keep ⟨fun _ _ => rfl, rfl, rfl, rfl⟩ rfl rfl

theorem inv_step {action : Action} (fresh : startsFresh config state action)
    (steps : step config state action = some after) : Inv config none after := by
  cases action with
  | addListener listener env =>
    cases steps
    exact inv_addListener inv fresh
  | removeListener id policy env =>
    cases steps
    exact inv_removeListener inv id policy
  | start env =>
    cases steps
    exact inv_start inv fresh
  | stop env =>
    cases steps
    exact inv_stop inv
  | handleResult shard env =>
    simp only [step] at steps
    split at steps
    next result results queue =>
      cases steps
      refine inv_handleListenerStartResult result ?_
      have same : withResult { state with
          results := Function.update state.results shard results } shard result = state := by
        simp [withResult, ← queue]
      rwa [same]
    · cases steps
  | runTask shard opens accepted env =>
    have isAccepted : accepted = true := fresh
    subst isAccepted
    simp only [step] at steps
    split at steps
    next task tasks queue =>
      cases steps
      exact inv_runTask inv queue opens
    · cases steps
  | accept shard slot target succeeds => exact inv_connects inv (connects_accept steps)
  | adopt source target creates => exact inv_connects inv (connects_adopt steps)
  | close shard id =>
    obtain ⟨-, closes⟩ := ite_none_right_eq_some.mp steps
    cases closes
    exact inv.keep ⟨fun _ _ => rfl, rfl, rfl, rfl⟩ rfl rfl

end

theorem inv_reachable (reached : (system config).ReachableUnder (startsFresh config) state) :
    Inv config none state := by
  induction reached with
  | start starts =>
    cases starts
    exact ⟨⟨nodup_nil, fun _ inside => absurd inside not_mem_nil⟩, nofun, nofun,
      fun _ _ _ inside => absurd inside not_mem_nil,
      fun _ inside => absurd inside not_mem_nil, fun _ _ _ => rfl⟩
  | next reached permitted steps ih => exact inv_step ih permitted steps

theorem fails_of_error (present : state.entryAt entry.id.slot = some entry)
    (isStarting : entry.phase = .starting) :
    ∃ failed, (state.handleListenerStartResult config env entry.id shard false).entryAt
      entry.id.slot = some failed ∧ failed.phase = .failed ∧ failed.attempt = entry.attempt := by
  have handled : state.handleListenerStartResult config env entry.id shard false =
      state.failStart config env entry entry.startedShards := by
    simp [handleListenerStartResult, present, isStarting, Nat.not_le.mpr (lt_of_entryAt present)]
  obtain ⟨tasks, isFailed⟩ : OnlyTasks (state.setEntry entry.id.slot (clearProgress entry .failed []))
      (state.failStart config env entry entry.startedShards) := onlyTasks_scheduleRemoves _ _
  refine ⟨clearProgress entry .failed [], ?_, rfl, rfl⟩
  rw [handled, isFailed]
  exact (entryAt_setEntry (lt_of_entryAt present) _ _).trans (if_pos rfl)

/-- An active listener has the success of every shard for its last start.  Once a
shard has reported an error it is not active: it has failed, the server was stopped,
or the error is on its way.  Messages of earlier starts are never on their way. -/
theorem active_after_all_reports
    (reached : (system config).ReachableUnder (startsFresh config) state)
    (present : state.entryAt slot = some entry) :
    (entry.phase = .active → ∃ attempt, entry.attempt = some attempt ∧
      ∀ shard ∈ entry.config.installShards, ⟨shard, ⟨entry.id, true, attempt⟩⟩ ∈ state.reports) ∧
    (∀ attempt shard, entry.attempt = some attempt →
      ⟨shard, ⟨entry.id, false, attempt⟩⟩ ∈ state.reports →
        entry.phase = .failed ∨ entry.phase = .configured ∧ entry.stopped = true ∨
          entry.phase = .starting ∧ ⟨some false, attempt⟩ ∈ state.messages entry.id shard) ∧
    (entry.phase = .starting → ∀ shard results env number,
      state.results shard = ⟨entry.id, false, number⟩ :: results →
        ∃ after failed, step config state (.handleResult shard env) = some after ∧
          after.entryAt slot = some failed ∧ failed.phase = .failed ∧
            failed.attempt = entry.attempt) ∧ ∀ attempt shard, entry.attempt = some attempt →
      ∀ message ∈ state.messages entry.id shard, message.attempt = attempt := by
  have inv := inv_reachable reached
  have isSlot := inv.slots slot entry present
  subst isSlot
  have entryInv := inv.entries _ entry nofun present
  refine ⟨fun isActive => ?_, fun attempt shard isAttempt isReport => ?_,
    fun isStarting shard results env number queue => ?_,
    fun attempt shard isAttempt => (entryInv.own attempt isAttempt).2 shard⟩
  · obtain ⟨attempt, isAttempt, active⟩ := entryInv.active isActive
    exact ⟨attempt, isAttempt, active.reportedOk⟩
  · cases isPhase : entry.phase with
    | configured => exact .inr (.inl ⟨rfl, entryInv.stopped isPhase (by simp [isAttempt])⟩)
    | starting =>
      obtain ⟨number, isNumber, starting⟩ := entryInv.starting isPhase
      cases isAttempt.symm.trans isNumber
      exact .inr (.inr ⟨rfl, starting.errors shard isReport⟩)
    | active =>
      obtain ⟨number, isNumber, active⟩ := entryInv.active isPhase
      cases isAttempt.symm.trans isNumber
      exact absurd isReport (active.noErrors shard)
    | failed => exact .inl rfl
  · have present : ({ state with
        results := Function.update state.results shard results } : ServerState).entryAt
          entry.id.slot = some entry := present
    obtain ⟨failed, isFailed⟩ : ∃ failed, (handleListenerStartResult config env _ entry.id shard
      false).entryAt entry.id.slot = some failed ∧ _ := fails_of_error present isStarting
    exact ⟨_, failed, by simp only [step, queue], isFailed⟩

theorem active_after_all_reports_both :
    ∃ state entry attempt, (system threeThreads).ReachableUnder (startsFresh threeThreads) state ∧
      state.entryAt 0 = some entry ∧ entry.phase = .active ∧ entry.attempt = some attempt ∧
        ∀ shard ∈ entry.config.installShards,
          ⟨shard, ⟨entry.id, true, attempt⟩⟩ ∈ state.reports := by
  obtain ⟨state, reached, observed⟩ := (system threeThreads).exists_reachableUnder
    (startsFresh threeThreads) (show (system threeThreads).initial initial from rfl)
    [.addListener onTwoThreads .good, .start .good, .runTask 1 true true .good,
      .runTask 2 true true .good, .handleResult 2 .good, .handleResult 1 .good]
    (fun state => (state.entryAt 0).map (·.phase) = some .active) (by decide)
  obtain ⟨entry, present, isActive⟩ := map_eq_some_iff.mp observed
  obtain ⟨attempt, isAttempt, all⟩ := (active_after_all_reports reached present).1 isActive
  exact ⟨state, entry, attempt, reached, present, isActive, isAttempt, all⟩

/-- The result of the first shard is on its way when the server stops and starts
again, and counts for the new start: the listener becomes active although the second
shard has not reported. -/
theorem stale_result_activates :
    ∃ state entry, (system threeThreads).Reachable state ∧ state.entryAt 0 = some entry ∧
      entry.phase = .active ∧ entry.attempt = some 1 ∧ 2 ∈ entry.config.installShards ∧
        ∀ report ∈ state.reports, report.shard ≠ 2 := by
  obtain ⟨state, reached, observed⟩ := (system threeThreads).exists_reachableUnder
    (fun _ _ => True) (show (system threeThreads).initial initial from rfl)
    [.addListener onTwoThreads .good, .start .good, .runTask 1 true true .good, .stop .good,
      .start .good, .runTask 1 true true .good, .runTask 1 true true .good, .handleResult 1 .good,
      .handleResult 1 .good]
    (fun state => (state.entryAt 0).map (fun entry => (entry.phase, entry.attempt,
      entry.config.installShards)) = some (.active, some 1, [1, 2]) ∧
        ∀ report ∈ state.reports, report.shard ≠ 2) (by decide)
  obtain ⟨entry, present, same⟩ := map_eq_some_iff.mp observed.1
  obtain ⟨isActive, isAttempt, isInstalled⟩ := by simpa only [Prod.mk.injEq] using same
  exact ⟨state, entry, reached, present, isActive, isAttempt, by simp [isInstalled], observed.2⟩

end StartProtocol

end AsyncFlow
