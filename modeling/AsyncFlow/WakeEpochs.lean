import AsyncFlow.OneTask

/-!
# Run epochs

The epoch stored in a task counts its runs and is one behind only while a run is
starting.  What a frame has read before stays true in a weaker form: epochs only
grow, a run that ended stays ended, and `Done` stays `Done`.
-/

namespace AsyncFlow

open Scheduler WakeRequest Option

/-- A request that some post packed for a thread of the runtime. -/
def ValidRequest (config : Config) (request : BitVec 64) : Prop :=
  ∃ epoch target mode, request = packRequestedThread epoch target mode ∧
    epoch.toNat < 2 ^ 46 ∧ target < config.threadCount

/-- A post that made its first access at run `born` has seen a run since, or is
not in the middle of one starting. -/
def Settled (born : Nat) (cell : TaskCell) : Prop :=
  born ≤ cell.runs ∧ (cell.state = .starting → born < cell.runs)

def Ended (epoch : BitVec 64) (cell : TaskCell) : Prop :=
  epoch.toNat = cell.runs → cell.state = .pending ∨ cell.state = .queued ∨ cell.state = .done

structure EpochCell (config : Config) (cell : TaskCell) : Prop where
  bound : cell.runs < 2 ^ 46
  created : cell.state = .created → cell.runs = 0
  running : cell.state = .running → 0 < cell.runs
  epoch : cell.state ≠ .starting → cell.runEpoch.toNat = cell.runs
  epoch_le : cell.runEpoch.toNat ≤ cell.runs
  runs_le : cell.runs ≤ cell.runEpoch.toNat + 1
  slot : cell.requestedThread = noRequestedThread ∨ ValidRequest config cell.requestedThread
  promises : ∀ born ∈ cell.promises, Settled born cell

/-- A post that has found the task running. -/
structure Waker (cell : TaskCell) (call : PostCall) : Prop where
  settled : Settled call.born cell
  positive : 0 < cell.runs

/-- A post that has registered, or is about to register, for the given epoch. -/
structure WakerAt (cell : TaskCell) (call : PostCall) (epoch : BitVec 64) : Prop
    extends Waker cell call where
  born_le : call.born ≤ epoch.toNat
  epoch_le : epoch.toNat ≤ cell.runEpoch.toNat

/-- What the state loaded by `resolve_running_wake_request` says later. -/
def SeenFact (cell : TaskCell) (call : PostCall) (epoch : BitVec 64) : TaskState → Prop
  | .pending | .queued => Ended epoch cell
  | .running => epoch.toNat < cell.runEpoch.toNat
  | .done => cell.state = .done
  | .starting => call.born < cell.runs
  | .created => False

def PostFact (cell : TaskCell) (call : PostCall) : PostPc → Prop
  | .begin => True
  | .requestLoad | .requestCas _ => call.born ≤ cell.runs
  | .wakeLoadEpoch | .wakeClear _ => Waker cell call
  | .wakeCas epoch | .resolveLoad epoch | .resolveEpoch epoch => WakerAt cell call epoch
  | .resolveClear epoch seen => WakerAt cell call epoch ∧ SeenFact cell call epoch seen
  | .resolveCas epoch => WakerAt cell call epoch ∧ Ended epoch cell
  | .started | .finished | .push .created _ | .cancel .created =>
    call.born ≤ cell.runs ∧ cell.runs = 0
  | .push .pending _ | .cancel .pending => call.born ≤ cell.runs

def ExecFact (config : Config) (cell : TaskCell) : ExecPc → Prop
  | .casStarting => True
  | .loadEpoch => cell.runEpoch.toNat + 1 = cell.runs
  | .storeEpoch next => cell.runEpoch.toNat + 1 = cell.runs ∧ next.toNat = cell.runs
  | .storeRunning => cell.runEpoch.toNat = cell.runs ∧ 0 < cell.runs
  | .pendingCheck request | .pendingCas request =>
    ValidRequest config request ∧ 0 < cell.runs
  | .running | .storeDone | .doneTake | .doneCheck | .doneFinished | .doneRelease
  | .storePending | .pendingTake | .pendingPush _ _ | .storeQueued | .againTake
  | .againCheck | .againPush => 0 < cell.runs

def FrameFact (config : Config) (cell : TaskCell) : Frame → Prop
  | .post call pc => call.target < config.threadCount ∧ PostFact cell call pc
  | .exec _ pc => ExecFact config cell pc
  | .complete _ _ => True
  | .release _ _ => True

/-- How a cell changes under the accesses of other frames. -/
structure Evolves (before after : TaskCell) : Prop where
  runs_le : before.runs ≤ after.runs
  epoch_le : before.runEpoch.toNat ≤ after.runEpoch.toNat
  starting : after.runs = before.runs → after.state = .starting → before.state = .starting
  ended : 0 < before.runs → after.runs = before.runs →
    before.state = .pending ∨ before.state = .queued ∨ before.state = .done →
      after.state = .pending ∨ after.state = .queued ∨ after.state = .done
  done : before.state = .done → after.state = .done

namespace Evolves

variable {before after : TaskCell}

section

variable (evolves : Evolves before after)

include evolves

theorem settled {born : Nat} (settled : Settled born before) : Settled born after := by
  have runsLe := evolves.runs_le
  have starting := evolves.starting
  refine ⟨settled.1.trans runsLe, fun isStarting => ?_⟩
  by_cases same : after.runs = before.runs
  · rw [same]
    exact settled.2 (starting same isStarting)
  · have := settled.1
    omega

theorem ended_of_ended {epoch : BitVec 64} (positive : 0 < before.runs)
    (epochLe : epoch.toNat ≤ before.runs) (ended : Ended epoch before) : Ended epoch after := by
  intro current
  have runsLe := evolves.runs_le
  exact evolves.ended positive (by omega) (ended (by omega))

theorem waker {call : PostCall} (waker : Waker before call) : Waker after call :=
  ⟨evolves.settled waker.settled, waker.positive.trans_le evolves.runs_le⟩

theorem wakerAt {call : PostCall} {epoch : BitVec 64} (waker : WakerAt before call epoch)
    : WakerAt after call epoch :=
  ⟨evolves.waker waker.toWaker, waker.born_le, waker.epoch_le.trans evolves.epoch_le⟩

theorem frameFact {config : Config} {frame : Frame} (epochLe : before.runEpoch.toNat ≤ before.runs)
    (ownedSame : frame.ownedState ≠ none →
      after.runs = before.runs ∧ after.runEpoch = before.runEpoch)
    (fact : FrameFact config before frame) : FrameFact config after frame := by
  have runsLe := evolves.runs_le
  have epochGrows := evolves.epoch_le
  cases frame with
  | post call pc =>
    refine ⟨fact.1, ?_⟩
    have postFact := fact.2
    cases pc with
    | begin => trivial
    | requestLoad | requestCas seen => exact Nat.le_trans postFact runsLe
    | wakeLoadEpoch | wakeClear expected => exact evolves.waker postFact
    | wakeCas epoch | resolveLoad epoch | resolveEpoch epoch => exact evolves.wakerAt postFact
    | resolveClear epoch seen =>
      obtain ⟨waker, seenFact⟩ := postFact
      have epochBound := waker.epoch_le.trans epochLe
      refine ⟨evolves.wakerAt waker, ?_⟩
      cases seen with
      | created => exact seenFact
      | starting => exact Nat.lt_of_lt_of_le seenFact runsLe
      | running => exact Nat.lt_of_lt_of_le seenFact epochGrows
      | queued | pending => exact evolves.ended_of_ended waker.positive epochBound seenFact
      | done => exact evolves.done seenFact
    | resolveCas epoch =>
      obtain ⟨waker, ended⟩ := postFact
      exact ⟨evolves.wakerAt waker,
        evolves.ended_of_ended waker.positive (waker.epoch_le.trans epochLe) ended⟩
    | started | finished =>
      simpa only [PostFact, (ownedSame (some_ne_none _)).1] using postFact
    | push previous waited | cancel previous =>
      have same := (ownedSame (some_ne_none _)).1
      cases previous <;> simpa only [PostFact, same] using postFact
  | exec task pc =>
    cases pc with
    | casStarting => trivial
    | loadEpoch | storeEpoch next | storeRunning =>
      have same := ownedSame (some_ne_none _)
      simpa only [FrameFact, ExecFact, same.1, same.2] using fact
    | pendingCheck request | pendingCas request =>
      exact ⟨fact.1, Nat.lt_of_lt_of_le fact.2 runsLe⟩
    | _ => exact Nat.lt_of_lt_of_le fact runsLe
  | complete task pc => trivial
  | release task pc => trivial

end

end Evolves

namespace EpochCell

variable {config : Config} {cell : TaskCell}

theorem sameRun (epochs : EpochCell config cell) (cell' : TaskCell)
    (state : cell'.state = cell.state)
    (runs : cell'.runs = cell.runs) (epoch : cell'.runEpoch = cell.runEpoch)
    (slot : cell'.requestedThread = cell.requestedThread ∨
      cell'.requestedThread = noRequestedThread ∨ ValidRequest config cell'.requestedThread)
    (promises : ∀ born ∈ cell'.promises, born ∈ cell.promises ∨ Settled born cell) :
    EpochCell config cell' ∧ Evolves cell cell' := by
  obtain ⟨bound, created, running, wasEpoch, epochLe, runsLe, wasSlot, wasPromised⟩ := epochs
  refine ⟨⟨?_, ?_, ?_, ?_, ?_, ?_, ?_, ?_⟩, ⟨?_, ?_, ?_, ?_, ?_⟩⟩ <;> grind [Settled]

theorem newState (epochs : EpochCell config cell) (state : TaskState)
    (current : cell.runEpoch.toNat = cell.runs) (notStarting : state ≠ .starting)
    (created : state = .created → cell.runs = 0) (running : state = .running → 0 < cell.runs)
    (ended : 0 < cell.runs → cell.state = .pending ∨ cell.state = .queued ∨ cell.state = .done →
        state = .pending ∨ state = .queued ∨ state = .done)
    (done : cell.state = .done → state = .done) : EpochCell config { cell with state := state } ∧
      Evolves cell { cell with state := state } := by
  refine ⟨{ epochs with
      created := created
      running := running
      epoch := fun _ => current
      promises := ?_ },
    ⟨le_rfl, le_rfl, fun _ isStarting => absurd isStarting notStarting,
      fun positive _ => ended positive, done⟩⟩
  intro born promised
  exact ⟨(epochs.promises born promised).1, fun isStarting => absurd isStarting notStarting⟩

theorem validRequest_desired (epochs : EpochCell config cell) {call : PostCall}
    {epoch : BitVec 64} (target : call.target < config.threadCount)
    (waker : WakerAt cell call epoch) : ValidRequest config (call.desired epoch) :=
  ⟨epoch, call.target, call.mode, rfl,
    (waker.epoch_le.trans epochs.epoch_le).trans_lt epochs.bound, target⟩

end EpochCell

variable {config : Config}

theorem ValidRequest.ne_none {request : BitVec 64} (valid : ValidRequest config request) :
    request ≠ noRequestedThread := by
  obtain ⟨epoch, target, mode, rfl, -, targetFits⟩ := valid
  exact packRequestedThread_ne_none (targetFits.trans_le config.threadCount_le)

theorem ValidRequest.target_ne {request : BitVec 64} (valid : ValidRequest config request) :
    requestedTarget request ≠ config.threadCount := by
  obtain ⟨epoch, target, mode, rfl, -, targetFits⟩ := valid
  rw [requestedTarget_pack (targetFits.trans_le config.threadCount_le)]
  exact targetFits.ne

theorem WakerAt.requestedEpoch_desired {cell : TaskCell} {call : PostCall} {epoch : BitVec 64}
    (waker : WakerAt cell call epoch) (epochs : EpochCell config cell)
    (target : call.target < config.threadCount) : requestedEpoch (call.desired epoch) = epoch :=
  requestedEpoch_pack ((waker.epoch_le.trans epochs.epoch_le).trans_lt epochs.bound)
    (target.trans_le config.threadCount_le)

section Accesses

variable {config : Config} {cell cell' : TaskCell} {next : Option Frame} {spurious : Bool}

structure AccessSpec (config : Config) (cell cell' : TaskCell) (next : Option Frame) : Prop where
  epochs : EpochCell config cell'
  evolves : Evolves cell cell'
  facts : ∀ frame ∈ next, FrameFact config cell' frame

theorem AccessSpec.goesOn {frame : Frame} (keeps : EpochCell config cell' ∧ Evolves cell cell')
    (fact : FrameFact config cell' frame) : AccessSpec config cell cell' (some frame) := by
  refine ⟨keeps.1, keeps.2, ?_⟩
  rintro frame ⟨⟩
  exact fact

theorem AccessSpec.ends (keeps : EpochCell config cell' ∧ Evolves cell cell') :
    AccessSpec config cell cell' none :=
  ⟨keeps.1, keeps.2, by simp⟩

theorem EpochCell.unchanged (epochs : EpochCell config cell) :
    EpochCell config cell ∧ Evolves cell cell :=
  epochs.sameRun cell rfl rfl rfl (.inl rfl) fun _ => .inl

variable {call : PostCall}

theorem requestSchedule_spec (epochs : EpochCell config cell)
    (target : call.target < config.threadCount) (born : call.born ≤ cell.runs) :
    AccessSpec config cell cell (call.requestSchedule cell.state) := by
  unfold PostCall.requestSchedule
  split
  case h_1 | h_2 | h_3 => exact .goesOn epochs.unchanged ⟨target, born⟩
  case h_4 isRunning =>
    exact .goesOn epochs.unchanged ⟨target, ⟨born, by simp [isRunning]⟩, epochs.running isRunning⟩
  all_goals exact .ends epochs.unchanged

variable {epoch : BitVec 64}

section

variable (epochs : EpochCell config cell)

include epochs

theorem requestWake_spec
    (target : call.target < config.threadCount) (waker : WakerAt cell call epoch) :
    AccessSpec config cell (call.requestWake epoch cell).1 (call.requestWake epoch cell).2 := by
  unfold PostCall.requestWake
  simp only
  split
  · have keeps := epochs.sameRun { cell with requestedThread := call.desired epoch } rfl rfl rfl
      (.inr (.inr (epochs.validRequest_desired target waker))) fun _ => .inl
    exact .goesOn keeps ⟨target, keeps.2.wakerAt waker⟩
  · split
    · exact .goesOn epochs.unchanged ⟨target, waker⟩
    · split
      · exact .goesOn epochs.unchanged ⟨target, waker.toWaker⟩
      · exact .ends epochs.unchanged

theorem resolveCleared_spec {seen : TaskState}
    (target : call.target < config.threadCount) (waker : WakerAt cell call epoch)
    (seenFact : SeenFact cell call epoch seen) :
    AccessSpec config cell (call.resolveCleared epoch seen cell).1
      (call.resolveCleared epoch seen cell).2 := by
  -- Whatever branch is taken, only the slot, the promises and history change.
  have keeps : ∀ cell' : TaskCell, cell'.state = cell.state → cell'.runs = cell.runs →
      cell'.runEpoch = cell.runEpoch → (cell'.requestedThread = cell.requestedThread ∨
        cell'.requestedThread = noRequestedThread) →
      (∀ born ∈ cell'.promises, born = call.born ∨ born ∈ cell.promises) →
      EpochCell config cell' ∧ Evolves cell cell' := by
    intro cell' state runs epochSame slot promises
    refine epochs.sameRun cell' state runs epochSame (slot.imp_right .inl) fun born promised => ?_
    rcases promises born promised with rfl | before
    · exact .inr waker.settled
    · exact .inl before
  unfold PostCall.resolveCleared
  split
  · cases seen with
    | pending =>
      have cleared := keeps { cell with requestedThread := noRequestedThread }
        rfl rfl rfl (.inr rfl) fun _ promised => .inr promised
      exact .goesOn cleared ⟨target, cleared.2.wakerAt waker, seenFact⟩
    | queued | starting | running | done =>
      exact .ends (keeps _ rfl rfl rfl (.inr rfl) fun _ => List.mem_cons.mp)
    | created => exact seenFact.elim
  · exact .ends (keeps (cell.promise call) rfl rfl rfl (.inl rfl) fun _ => List.mem_cons.mp)

theorem EpochCell.queue (idle : cell.state = .created ∨ cell.state = .pending) :
    EpochCell config { cell with state := .queued } ∧
      Evolves cell { cell with state := .queued } := by
  have notStarting : cell.state ≠ .starting := by
    rcases idle with isCreated | isPending <;> simp [*]
  refine epochs.newState .queued (epochs.epoch notStarting) (by simp) (by simp) (by simp)
    (by simp) ?_
  rcases idle with isCreated | isPending <;> simp [*]

theorem EpochCell.seenFact (waker : WakerAt cell call epoch)
    (notRunning : cell.state ≠ .running) : SeenFact cell call epoch cell.state := by
  cases state : cell.state with
  | created => exact waker.positive.ne' (epochs.created state)
  | queued => exact fun _ => .inr (.inl state)
  | starting => exact waker.settled.2 state
  | running => exact absurd state notRunning
  | pending => exact fun _ => .inl state
  | done => exact state

theorem postAccess_spec {pc : PostPc} (fact : FrameFact config cell (.post call pc))
    (linked : ∀ known, (Frame.post call pc).ownedState = some known → cell.state = known)
    (accesses : call.access cell spurious pc = some (cell', next)) :
    AccessSpec config cell cell' next := by
  obtain ⟨target, postFact⟩ := fact
  cases pc with
  | begin =>
    cases accesses
    exact requestSchedule_spec epochs target le_rfl
  | requestLoad =>
    cases accesses
    exact requestSchedule_spec epochs target postFact
  | requestCas seen =>
    simp only [PostCall.access] at accesses
    split at accesses
    · rename_i swaps
      cases accesses
      have idle := seen.toTaskState_idle
      rw [← swaps.1] at idle
      refine .goesOn (epochs.queue idle) ⟨target, ?_⟩
      cases seen with
      | created => exact ⟨postFact, epochs.created swaps.1⟩
      | pending => exact postFact
    · cases accesses
      exact .goesOn epochs.unchanged ⟨target, postFact⟩
  | wakeLoadEpoch =>
    cases accesses
    refine .goesOn epochs.unchanged ⟨target, ⟨postFact, ?_, le_rfl⟩⟩
    -- The epoch is one behind only while a run starts, which is newer than `born`.
    by_cases isStarting : cell.state = .starting
    · have newer := postFact.settled.2 isStarting
      have lag := epochs.runs_le
      omega
    · rw [epochs.epoch isStarting]
      exact postFact.settled.1
  | wakeCas epoch =>
    obtain ⟨rfl, rfl⟩ := Prod.mk.inj (Option.some.inj accesses)
    exact requestWake_spec epochs target postFact
  | wakeClear expected =>
    simp only [PostCall.access, Option.some.injEq, Prod.mk.injEq] at accesses
    obtain ⟨rfl, rfl⟩ := accesses
    have keeps := epochs.sameRun (if cell.requestedThread = expected then
        { cell with requestedThread := noRequestedThread } else cell)
      (by split <;> rfl) (by split <;> rfl) (by split <;> rfl)
      (by split <;> simp) (by split <;> exact fun _ => .inl)
    exact .goesOn keeps ⟨target, keeps.2.waker postFact⟩
  | resolveLoad epoch =>
    cases accesses
    refine .goesOn epochs.unchanged ⟨target, ?_⟩
    split
    · exact postFact
    · rename_i notRunning
      exact ⟨postFact, epochs.seenFact postFact notRunning⟩
  | resolveEpoch epoch =>
    simp only [PostCall.access] at accesses
    split at accesses
    · cases accesses
      refine .ends (epochs.sameRun (cell.promise call) rfl rfl rfl (.inl rfl) ?_)
      intro born promised
      rcases List.mem_cons.mp promised with rfl | before
      · exact .inr postFact.settled
      · exact .inl before
    · rename_i stale
      cases accesses
      refine .goesOn epochs.unchanged
        ⟨target, postFact, lt_of_le_of_ne postFact.epoch_le fun same => ?_⟩
      exact stale (BitVec.eq_of_toNat_eq same.symm)
  | resolveClear epoch seen =>
    obtain ⟨rfl, rfl⟩ := Prod.mk.inj (Option.some.inj accesses)
    exact resolveCleared_spec epochs target postFact.1 postFact.2
  | resolveCas epoch =>
    obtain ⟨waker, ended⟩ := postFact
    simp only [PostCall.access] at accesses
    split at accesses
    · rename_i isPending
      cases accesses
      obtain ⟨queued, toQueued⟩ := epochs.queue (.inr isPending)
      obtain ⟨epochs', evolves⟩ := queued.sameRun
        (TaskCell.handOver { cell with state := .queued } epoch) rfl rfl rfl (.inl rfl)
        fun _ => .inl
      exact .goesOn ⟨epochs', ⟨le_rfl, le_rfl, by simp [TaskCell.handOver],
        by simp [TaskCell.handOver], by simp [isPending]⟩⟩ ⟨target, waker.settled.1⟩
    · cases accesses
      have keeps := epochs.sameRun (cell.handOver epoch) rfl rfl rfl (.inl rfl) fun _ => .inl
      exact .goesOn keeps ⟨target, keeps.2.wakerAt waker⟩
  | started | push previous waited | finished => cases accesses
  | cancel previous =>
    have isQueued := linked .queued rfl
    simp only [PostCall.access, isQueued, if_true] at accesses
    cases accesses
    have current := epochs.epoch (by simp [isQueued])
    cases previous with
    | created =>
      exact .ends (epochs.newState .created current (by simp) (fun _ => postFact.2) (by simp)
        (fun positive => absurd postFact.2 positive.ne') (by simp [isQueued]))
    | pending =>
      exact .ends (epochs.newState .pending current (by simp) (by simp) (by simp) (by simp)
        (by simp [isQueued]))

theorem EpochCell.begin (task : TaskId)
    (isQueued : cell.state = .queued) (fits : cell.runs + 1 < 2 ^ 46) : AccessSpec config cell
      { cell with state := .starting, runs := cell.runs + 1, handedOver := false }
      (some (.exec task .loadEpoch)) := by
  have current := epochs.epoch (by simp [isQueued])
  refine .goesOn ⟨⟨fits, by simp, by simp, by simp, Nat.le_succ_of_le epochs.epoch_le,
    by simp [current], epochs.slot, fun born promised => ?_⟩,
    ⟨Nat.le_succ _, le_rfl, by simp, by simp, by simp [isQueued]⟩⟩ (congrArg (· + 1) current)
  have before := (epochs.promises born promised).1
  exact ⟨Nat.le_succ_of_le before, fun _ => Nat.lt_succ_of_le before⟩

theorem EpochCell.storeEpoch (isStarting : cell.state = .starting)
    (lag : cell.runEpoch.toNat + 1 = cell.runs) (stored : epoch.toNat = cell.runs) :
    EpochCell config { cell with runEpoch := epoch } ∧
      Evolves cell { cell with runEpoch := epoch } := by
  refine ⟨{ epochs with
      epoch := fun _ => stored
      epoch_le := stored.le
      runs_le := by simp [stored] },
    ⟨le_rfl, ?_, fun _ _ => isStarting, fun _ _ ended => ended, fun done => done⟩⟩
  simp only
  omega

theorem execAccess_spec {task : TaskId} {pc : ExecPc} (fact : ExecFact config cell pc)
    (linked : ∀ known, (Frame.exec task pc).ownedState = some known → cell.state = known)
    (fits : cell.runs + 1 < 2 ^ 46)
    (accesses : execAccess config.threadCount task cell pc = some (cell', next)) :
    AccessSpec config cell cell' next := by
  have takes : EpochCell config { cell with requestedThread := noRequestedThread } ∧
      Evolves cell { cell with requestedThread := noRequestedThread } :=
    epochs.sameRun _ rfl rfl rfl (.inr (.inl rfl)) fun _ => .inl
  cases pc with
  | casStarting =>
    have isQueued := linked .queued rfl
    simp only [execAccess, isQueued, if_true] at accesses
    cases accesses
    exact epochs.begin task isQueued fits
  | loadEpoch =>
    cases accesses
    have lag : cell.runEpoch.toNat + 1 = cell.runs := fact
    refine .goesOn epochs.unchanged ⟨lag, ?_⟩
    rw [BitVec.toNat_add, show (1 : BitVec 64).toNat = 1 from rfl]
    omega
  | storeEpoch epoch =>
    cases accesses
    refine .goesOn (epochs.storeEpoch (linked .starting rfl) fact.1 fact.2) ⟨fact.2, ?_⟩
    have := fact.1
    simp only
    omega
  | storeRunning =>
    cases accesses
    exact .goesOn (epochs.newState .running fact.1 (by simp) (by simp) (fun _ => fact.2)
      (by simp [linked .starting rfl]) (by simp [linked .starting rfl])) fact.2
  | storeDone | storePending | storeQueued =>
    cases accesses
    exact .goesOn (epochs.newState _ (epochs.epoch (by simp [linked .running rfl])) (by simp)
      (by simp) (by simp) (by simp) (by simp [linked .running rfl])) fact
  | doneTake | againTake =>
    cases accesses
    refine .goesOn takes ?_
    split <;> exact fact
  | pendingTake =>
    cases accesses
    split
    · exact .ends takes
    · rename_i occupied
      exact .goesOn takes ⟨epochs.slot.resolve_left occupied, fact⟩
  | pendingCheck request =>
    cases accesses
    split
    · exact .goesOn epochs.unchanged fact
    · exact .ends epochs.unchanged
  | pendingCas request =>
    simp only [execAccess] at accesses
    split at accesses
    · rename_i isPending
      cases accesses
      exact .goesOn (epochs.queue (.inr isPending)) fact.2
    · cases accesses
      exact .ends (epochs.sameRun (cell.handOver (requestedEpoch request)) rfl rfl rfl
        (.inl rfl) fun _ => .inl)
  | doneCheck | againCheck =>
    cases accesses
    exact .goesOn epochs.unchanged fact
  | doneRelease =>
    cases accesses
    exact .ends (epochs.sameRun (TaskCell.releaseLifetimeRef { cell with runtimeRef := false })
      rfl rfl rfl (.inl rfl) fun _ => .inl)
  | running | doneFinished | pendingPush request waited | againPush => cases accesses

end

theorem Frame.access_spec {frame : Frame} (epochs : EpochCell config cell)
    (fact : FrameFact config cell frame)
    (linked : ∀ known, frame.ownedState = some known → cell.state = known)
    (fits : cell.runs + 1 < 2 ^ 46)
    (accesses : frame.access config.threadCount cell spurious = some (cell', next)) :
    AccessSpec config cell cell' next := by
  cases frame with
  | post call pc => exact postAccess_spec epochs fact linked accesses
  | exec task pc => exact execAccess_spec epochs fact linked fits accesses
  | complete task pc =>
    cases pc with
    | cas =>
      simp only [Frame.access, completeAccess] at accesses
      split at accesses
      · rename_i isPending
        cases accesses
        exact .goesOn (epochs.queue (.inr isPending)) trivial
      · cases accesses
        exact .ends epochs.unchanged
    | push => cases accesses
  | release task pc =>
    cases pc with
    | load =>
      cases accesses
      exact .goesOn epochs.unchanged trivial
    | first seen =>
      cases accesses
      have keeps := epochs.sameRun (TaskCell.releaseLifetimeRef { cell with handle := .released })
        rfl rfl rfl (.inl rfl) fun _ => .inl
      split
      · exact .goesOn keeps trivial
      · exact .ends keeps
    | second =>
      cases accesses
      exact .ends (epochs.sameRun (TaskCell.releaseLifetimeRef { cell with runtimeRef := false })
        rfl rfl rfl (.inl rfl) fun _ => .inl)

end Accesses

end AsyncFlow
