import AsyncFlow.WakeEpochs

/-!
# Wake support

A post that returned true relies on a run that has not begun yet.  Until then
something must still lead to it: a registered request of the current epoch, a
frame that will register or use one, or a schedule that is certain to reach a
queue.  Every access keeps this except three; without those no wake-up is lost.
-/

namespace AsyncFlow

open Scheduler WakeRequest Frame

/-- The frame will report success because of a request it has registered. -/
def Frame.relies (runs : Nat) : Frame → Prop
  | .post call (.resolveLoad _) | .post call (.resolveEpoch _)
  | .post call (.resolveClear _ _) => call.born = runs
  | _ => False

/-- The frame leads to a new request or to a schedule in the given epoch. -/
def Frame.carries (epoch : BitVec 64) : Frame → Prop
  | .post _ .wakeLoadEpoch | .post _ (.wakeClear _) => True
  | .post _ (.wakeCas registered) | .post _ (.resolveCas registered) => registered = epoch
  | .exec _ (.pendingCheck request) | .exec _ (.pendingCas request) =>
    requestedEpoch request = epoch
  | _ => False

/-- The frame has made the task `Queued` and cannot be refused. -/
def Frame.committed : Frame → Prop
  | .exec _ .casStarting | .exec _ (.pendingPush _ _) | .exec _ .againTake
  | .exec _ .againCheck | .exec _ .againPush | .complete _ .push => True
  | _ => False

/-- The access acts on a state that was read too early.  `finish_pending` drops
a request of the run that is under way; a waker that saw the task `Starting` or
`Queued` clears a request although that run or schedule is over. -/
def actsOnStaleState (cell : TaskCell) : Frame → Bool
  | .exec _ (.pendingCas request) =>
    cell.state = .running ∧ requestedEpoch request = cell.runEpoch
  | .post call (.resolveClear epoch seen) =>
    (seen = .starting ∨ seen = .queued) ∧ cell.requestedThread = call.desired epoch ∧
      epoch = cell.runEpoch ∧ (cell.state = .running ∨ cell.state = .pending)
  | _ => false

/-- The rollback of a refused schedule on which another wake was dropped. -/
def undoesHandOver (cell : TaskCell) : Frame → Bool
  | .post _ (.cancel _) => cell.handedOver
  | _ => false

/-- None of the accesses that can lose a wake-up. -/
def keepsWakes (cell : TaskCell) (frame : Frame) : Prop :=
  actsOnStaleState cell frame = false ∧ undoesHandOver cell frame = false

instance (cell : TaskCell) (frame : Frame) : Decidable (keepsWakes cell frame) :=
  inferInstanceAs (Decidable (_ ∧ _))

def Needs (cell : TaskCell) (frame : Option Frame) (otherRelies : Prop) : Prop :=
  cell.runs ∈ cell.promises ∨ (∃ live ∈ frame, live.relies cell.runs) ∨ otherRelies

def Supports (cell : TaskCell) (frame : Option Frame)
    (otherCarries otherCommitted inQueue : Prop) : Prop :=
  cell.state = .done ∨
  (cell.requestedThread ≠ noRequestedThread ∧ requestedEpoch cell.requestedThread = cell.runEpoch) ∨
  (∃ live ∈ frame, live.carries cell.runEpoch) ∨ otherCarries ∨
  (cell.state = .queued ∧
    (cell.handedOver = true ∨ inQueue ∨ (∃ live ∈ frame, live.committed) ∨ otherCommitted))

/-- What the other frames and the queues do for a task. -/
structure Bystanders where
  relies : Prop
  carries : Prop
  committed : Prop
  inQueue : Prop

/-- Where a run is needed something leads to it. -/
def Backed (cell : TaskCell) (frame : Option Frame) (bystanders : Bystanders) : Prop :=
  Needs cell frame bystanders.relies →
    Supports cell frame bystanders.carries bystanders.committed bystanders.inQueue

section Step

variable {config : Config} {cell cell' : TaskCell} {frame : Frame} {next : Option Frame}
  {spurious : Bool} {otherRelies otherCarries otherCommitted inQueue : Prop}
  {bystanders : Bystanders}

@[simp]
theorem needs_some : Needs cell (some frame) otherRelies ↔
    cell.runs ∈ cell.promises ∨ frame.relies cell.runs ∨ otherRelies := by
  simp [Needs]

@[simp]
theorem needs_none : Needs cell none otherRelies ↔ cell.runs ∈ cell.promises ∨ otherRelies := by
  simp [Needs]

@[simp]
theorem supports_some : Supports cell (some frame) otherCarries otherCommitted inQueue ↔
      cell.state = .done ∨ (cell.requestedThread ≠ noRequestedThread ∧
        requestedEpoch cell.requestedThread = cell.runEpoch) ∨
      frame.carries cell.runEpoch ∨ otherCarries ∨ (cell.state = .queued ∧
        (cell.handedOver = true ∨ inQueue ∨ frame.committed ∨ otherCommitted)) := by
  simp [Supports]

@[simp]
theorem supports_none : Supports cell none otherCarries otherCommitted inQueue ↔
      cell.state = .done ∨ (cell.requestedThread ≠ noRequestedThread ∧
        requestedEpoch cell.requestedThread = cell.runEpoch) ∨ otherCarries ∨
      (cell.state = .queued ∧ (cell.handedOver = true ∨ inQueue ∨ otherCommitted)) := by
  simp [Supports]

attribute [local grind =] needs_some needs_none supports_some supports_none

attribute [local grind] Backed Frame.relies carries committed TaskCell.promise
  TaskCell.handOver TaskCell.releaseLifetimeRef

variable {call : PostCall}

theorem requestSchedule_supports {pc : PostPc}
    (passive : ¬ (post call pc).carries cell.runEpoch ∧ ¬ (post call pc).committed)
    (supported : Backed cell (some (.post call pc)) bystanders) (posting : PostCall) :
    Backed cell (posting.requestSchedule cell.state) bystanders := by
  unfold PostCall.requestSchedule
  cases state : cell.state <;> grind

variable {epoch : BitVec 64}

section

variable (epochs : EpochCell config cell)

include epochs

theorem requestWake_supports
    (target : call.target < config.threadCount) (waker : WakerAt cell call epoch)
    (notStarting : cell.state ≠ .starting)
    (supported : Backed cell (some (.post call (.wakeCas epoch))) bystanders) :
    Backed (call.requestWake epoch cell).1 (call.requestWake epoch cell).2 bystanders := by
  have tag := waker.requestedEpoch_desired epochs target
  have nonempty := (epochs.validRequest_desired target waker).ne_none
  -- A frame born in this run has read the epoch of this run.
  have current : call.born = cell.runs → epoch = cell.runEpoch := by
    intro bornNow
    apply BitVec.eq_of_toNat_eq
    have := epochs.epoch notStarting
    have := waker.born_le
    have := waker.epoch_le
    omega
  unfold PostCall.requestWake
  by_cases empty : cell.requestedThread = noRequestedThread
  · grind
  · by_cases same : cell.requestedThread = call.desired epoch <;> grind

theorem resolveCleared_supports {seen : TaskState}
    (target : call.target < config.threadCount) (waker : WakerAt cell call epoch)
    (seenFact : SeenFact cell call epoch seen) (notStarting : cell.state ≠ .starting)
    (permitted : keepsWakes cell (.post call (.resolveClear epoch seen)))
    (supported : Backed cell (some (.post call (.resolveClear epoch seen))) bystanders) :
    Backed (call.resolveCleared epoch seen cell).1 (call.resolveCleared epoch seen cell).2
      bystanders := by
  have tag := waker.requestedEpoch_desired epochs target
  have created : cell.state = .created → False := fun isCreated =>
    waker.positive.ne' (epochs.created isCreated)
  unfold PostCall.resolveCleared
  simp only [keepsWakes, actsOnStaleState, decide_eq_false_iff_not] at permitted
  by_cases mine : cell.requestedThread = call.desired epoch
  · cases seen <;> simp only [SeenFact, Ended] at seenFact <;> cases state : cell.state <;> grind
  · grind

theorem resolveCas_supports (waker : WakerAt cell call epoch)
    (ended : Ended epoch cell) (notStarting : cell.state ≠ .starting)
    (accesses : call.access cell spurious (.resolveCas epoch) = some (cell', next))
    (supported : Backed cell (some (.post call (.resolveCas epoch))) bystanders) :
    Backed cell' next bystanders := by
  have settledEpoch := epochs.epoch notStarting
  have bornLe := waker.born_le
  have epochLe := waker.epoch_le
  have current : epoch.toNat = cell.runs → epoch = cell.runEpoch := fun same =>
    BitVec.eq_of_toNat_eq (same.trans settledEpoch.symm)
  simp only [PostCall.access] at accesses
  unfold Ended at ended
  split at accesses
  · cases accesses
    grind
  · cases accesses
    cases state : cell.state <;> grind

theorem postAccess_supports {pc : PostPc} (fact : FrameFact config cell (.post call pc))
    (linked : ∀ known, (post call pc).ownedState = some known → cell.state = known)
    (alone : (post call pc).ownedState ≠ none → ¬ bystanders.inQueue ∧ ¬ bystanders.committed)
    (permitted : keepsWakes cell (.post call pc)) (notStarting : cell.state ≠ .starting)
    (accesses : call.access cell spurious pc = some (cell', next))
    (supported : Backed cell (some (.post call pc)) bystanders) : Backed cell' next bystanders := by
  obtain ⟨target, postFact⟩ := fact
  cases pc with
  | begin | requestLoad =>
    cases accesses
    exact requestSchedule_supports ⟨id, id⟩ supported _
  | requestCas seen =>
    have idle := seen.toTaskState_idle
    simp only [PostCall.access] at accesses
    split at accesses
    · cases accesses
      cases seen <;> grind
    · cases accesses
      grind
  | wakeLoadEpoch | wakeClear expected | resolveLoad epoch =>
    cases accesses
    grind
  | wakeCas epoch =>
    obtain ⟨rfl, rfl⟩ := Prod.mk.inj (Option.some.inj accesses)
    exact requestWake_supports epochs target postFact notStarting supported
  | resolveEpoch epoch =>
    simp only [PostCall.access] at accesses
    split at accesses <;> cases accesses <;> grind
  | resolveClear epoch seen =>
    obtain ⟨rfl, rfl⟩ := Prod.mk.inj (Option.some.inj accesses)
    exact resolveCleared_supports epochs target postFact.1 postFact.2 notStarting
      permitted supported
  | resolveCas epoch =>
    exact resolveCas_supports epochs postFact.1 postFact.2 notStarting accesses supported
  | started | push previous waited | finished => cases accesses
  | cancel previous =>
    -- Nobody but this frame holds the task, so only the slot or a carrier can count.
    obtain ⟨notInQueue, notCommitted⟩ := alone (Option.some_ne_none _)
    have isQueued := linked .queued rfl
    have notHandedOver : cell.handedOver = false := permitted.2
    simp only [PostCall.access, isQueued, if_true] at accesses
    cases accesses
    grind

theorem execAccess_supports {task : TaskId} {pc : ExecPc} (fact : ExecFact config cell pc)
    (linked : ∀ known, (exec task pc).ownedState = some known → cell.state = known)
    (permitted : keepsWakes cell (.exec task pc)) (notStarting : cell.state ≠ .starting)
    (stillNotStarting : cell'.state ≠ .starting)
    (accesses : execAccess config.threadCount task cell pc = some (cell', next))
    (supported : Backed cell (some (.exec task pc)) bystanders) : Backed cell' next bystanders := by
  cases pc with
  | casStarting =>
    have isQueued := linked .queued rfl
    simp only [execAccess, isQueued, if_true] at accesses
    cases accesses
    exact absurd rfl stillNotStarting
  | loadEpoch | storeEpoch epoch | storeRunning =>
    exact absurd (linked .starting rfl) notStarting
  | storeDone =>
    cases accesses
    exact fun _ => .inl rfl
  | doneTake | doneCheck | doneRelease =>
    cases accesses
    exact fun _ => .inl (linked .done rfl)
  | storePending =>
    have isRunning := linked .running rfl
    cases accesses
    grind
  | pendingTake =>
    cases accesses
    by_cases empty : cell.requestedThread = noRequestedThread <;> grind
  | pendingCheck request =>
    have valid : requestedTarget request ≠ config.threadCount := fact.1.target_ne
    cases accesses
    grind
  | pendingCas request =>
    have created : cell.state = .created → False := fun isCreated =>
      fact.2.ne' (epochs.created isCreated)
    simp only [keepsWakes, actsOnStaleState, decide_eq_false_iff_not] at permitted
    simp only [execAccess] at accesses
    split at accesses
    · cases accesses
      grind
    · cases accesses
      cases state : cell.state <;> grind
  | storeQueued =>
    cases accesses
    grind
  | againTake | againCheck =>
    have isQueued := linked .queued rfl
    cases accesses
    grind
  | running | doneFinished | pendingPush request waited | againPush => cases accesses

theorem access_supports (fact : FrameFact config cell frame)
    (linked : ∀ known, frame.ownedState = some known → cell.state = known)
    (alone : frame.ownedState ≠ none → ¬ bystanders.inQueue ∧ ¬ bystanders.committed)
    (permitted : keepsWakes cell frame) (notStarting : cell.state ≠ .starting)
    (stillNotStarting : cell'.state ≠ .starting)
    (accesses : frame.access config.threadCount cell spurious = some (cell', next))
    (supported : Backed cell (some frame) bystanders) : Backed cell' next bystanders := by
  cases frame with
  | post call pc =>
    exact postAccess_supports epochs fact linked alone permitted notStarting accesses supported
  | exec task pc =>
    exact execAccess_supports epochs fact linked permitted notStarting stillNotStarting
      accesses supported
  | complete task pc =>
    cases pc with
    | cas =>
      simp only [access, completeAccess] at accesses
      split at accesses <;> cases accesses <;> grind
    | push => cases accesses
  | release task pc =>
    cases pc with
    | load | first seen | second =>
      cases accesses
      grind

end

section

variable (linked : ∀ known, frame.ownedState = some known → cell.state = known)
  (accesses : frame.access config.threadCount cell spurious = some (cell', next))

include linked accesses

theorem storeRunning_of_starting (starting : cell.state = .starting)
    (started : cell'.state ≠ .starting) : ∃ task, frame = .exec task .storeRunning := by
  rcases access_ownership accesses linked with
    ⟨_, sameState, _⟩ | ⟨owns | isCreated | isPending, _⟩
  · exact absurd (sameState.trans starting) started
  · obtain ⟨known, knows⟩ := Option.ne_none_iff_exists'.mp owns
    have isStarting := linked known knows
    rw [starting] at isStarting
    subst isStarting
    unfold ownedState at knows
    split at knows
    case h_7 | h_8 =>
      cases accesses
      exact absurd starting started
    case h_9 => exact ⟨_, rfl⟩
    all_goals cases knows
  · rw [starting] at isCreated
    cases isCreated
  · rw [starting] at isPending
    cases isPending

theorem sameRun_of_not_starting (notStarting : cell.state ≠ .starting)
    (stillNotStarting : cell'.state ≠ .starting) :
    cell'.runs = cell.runs ∧ cell'.runEpoch = cell.runEpoch := by
  by_cases ownsNothing : frame.ownedState = none
  · exact (access_keeps accesses).2.2 ownsNothing
  -- Of the frames that own the task, only `exec` can change the run.
  cases frame <;> rename_i pc <;> cases pc <;>
    simp [ownedState] at linked ownsNothing <;>
    simp only [access, PostCall.access, execAccess, completeAccess,
      TaskCell.releaseLifetimeRef] at accesses <;>
    grind

end

end Step

structure WakeInv (config : Config) (view : TaskView) : Prop where
  epochs : EpochCell config view.cell
  facts : ∀ frame ∈ view.live, FrameFact config view.cell frame
  supported : Needs view.cell none (∃ frame ∈ view.live, frame.relies view.cell.runs) →
    Supports view.cell none (∃ frame ∈ view.live, frame.carries view.cell.runEpoch)
      (∃ frame ∈ view.live, frame.committed) view.inQueue

section Views

variable {config : Config} {cell cell' : TaskCell} {frame : Frame} {next : Option Frame}
  {others : Set Frame} {inQueue : Prop}

theorem exists_union {property : Frame → Prop} :
    (∃ live ∈ { following | following ∈ next } ∪ others, property live) ↔
      (∃ live ∈ next, property live) ∨ ∃ live ∈ others, property live := by
  simp only [Set.mem_union, Set.mem_ofPred_eq, or_and_right, exists_or]

theorem needs_union : Needs cell none (∃ live ∈ { following | following ∈ next } ∪ others,
      live.relies cell.runs) ↔ Needs cell next (∃ live ∈ others, live.relies cell.runs) := by
  rw [exists_union, needs_none, Needs]

theorem supports_union : Supports cell none
      (∃ live ∈ { following | following ∈ next } ∪ others, live.carries cell.runEpoch)
      (∃ live ∈ { following | following ∈ next } ∪ others, live.committed) inQueue ↔
    Supports cell next (∃ live ∈ others, live.carries cell.runEpoch)
      (∃ live ∈ others, live.committed) inQueue := by
  rw [exists_union, exists_union, supports_none, Supports]
  simp only [or_assoc]

theorem insert_eq_union :
    insert frame others = { following | following ∈ some frame } ∪ others := by
  ext live
  simp [eq_comm]

theorem Frame.ownedState_of_committed (commits : frame.committed) :
    frame.ownedState = some .queued := by
  unfold committed at commits
  split at commits <;> first | rfl | exact commits.elim

theorem Frame.settled_of_relies {runs : Nat} (fact : FrameFact config cell frame)
    (relies : frame.relies runs) : ∃ born, born = runs ∧ Settled born cell := by
  unfold Frame.relies at relies
  split at relies
  · exact ⟨_, relies, fact.2.settled⟩
  · exact ⟨_, relies, fact.2.settled⟩
  · exact ⟨_, relies, fact.2.1.settled⟩
  · exact relies.elim

theorem not_needs_of_starting (epochs : EpochCell config cell)
    (facts : ∀ live ∈ others, FrameFact config cell live) (starting : cell.state = .starting) :
    ¬ Needs cell none (∃ live ∈ others, live.relies cell.runs) := by
  rw [needs_none]
  rintro (promised | ⟨live, isLive, relies⟩)
  · exact lt_irrefl _ ((epochs.promises _ promised).2 starting)
  · obtain ⟨born, rfl, settled⟩ := settled_of_relies (facts live isLive) relies
    exact lt_irrefl _ (settled.2 starting)

section

variable (inv : WakeInv config ⟨cell, inQueue, insert frame others⟩)

include inv

theorem WakeInv.access {spurious : Bool}
    (linked : TaskView.Linked ⟨cell, inQueue, insert frame others⟩)
    (alone : frame.ownedState ≠ none → ¬ inQueue ∧ ∀ other ∈ others, other.ownedState = none)
    (fits : cell.runs + 1 < 2 ^ 46) (keeps : keepsWakes cell frame)
    (accesses : frame.access config.threadCount cell spurious = some (cell', next)) :
    WakeInv config ⟨cell', inQueue, { following | following ∈ next } ∪ others⟩ := by
  have fact := inv.facts frame (Set.mem_insert _ _)
  have frameLinked := linked.owned frame (Set.mem_insert _ _)
  have spec := access_spec inv.epochs fact frameLinked fits accesses
  have otherFacts : ∀ live ∈ others, FrameFact config cell' live := by
    intro live isOther
    refine spec.evolves.frameFact inv.epochs.epoch_le (fun owns => ?_)
      (inv.facts live (Set.mem_insert_of_mem _ isOther))
    refine (access_keeps accesses).2.2 ?_
    by_contra frameOwns
    exact owns ((alone frameOwns).2 live isOther)
  have facts : ∀ live ∈ { following | following ∈ next } ∪ others, FrameFact config cell' live := by
    rintro live (isNext | isOther)
    · exact spec.facts live isNext
    · exact otherFacts live isOther
  refine ⟨spec.epochs, facts, fun needs => ?_⟩
  have stillNotStarting : cell'.state ≠ .starting := fun starting =>
    not_needs_of_starting spec.epochs facts starting needs
  have supported := inv.supported
  simp only [insert_eq_union, needs_union, supports_union] at supported needs ⊢
  by_cases starting : cell.state = .starting
  · -- The run has just started: whoever counts on it now did so before.
    have noNeed := not_needs_of_starting inv.epochs inv.facts starting
    obtain ⟨task, rfl⟩ := storeRunning_of_starting frameLinked accesses starting stillNotStarting
    cases accesses
    rw [insert_eq_union, needs_union, needs_some] at noNeed
    rw [needs_some] at needs
    exact absurd needs noNeed
  · obtain ⟨sameRuns, sameEpoch⟩ := sameRun_of_not_starting frameLinked accesses starting
      stillNotStarting
    rw [sameRuns] at needs
    rw [sameEpoch]
    refine @access_supports config cell cell' frame next spurious ⟨_, _, _, inQueue⟩ inv.epochs fact
      frameLinked (fun owns => ?_) keeps starting stillNotStarting accesses supported needs
    obtain ⟨notInQueue, noneOwns⟩ := alone owns
    refine ⟨notInQueue, ?_⟩
    rintro ⟨live, isOther, commits⟩
    have owned := ownedState_of_committed commits
    rw [noneOwns live isOther] at owned
    cases owned

theorem WakeInv.proceed {next : Frame} (proceeds : Proceeds frame next ∨ Counts frame next) :
    WakeInv config ⟨cell, inQueue, insert next others⟩ := by
  obtain ⟨fact, otherFacts⟩ := Set.forall_mem_insert.mp inv.facts
  -- The new frame relies on, carries and commits to as much as the old one.
  have step : FrameFact config cell next ∧ (next.relies cell.runs → frame.relies cell.runs) ∧
      (frame.carries cell.runEpoch → next.carries cell.runEpoch) ∧
      (frame.committed → next.committed) := by
    rcases proceeds with proceeds | counts
    · cases proceeds with
      | finish task result => cases result <;> exact ⟨fact, id, id, id⟩
      | wait =>
        unfold markWaited
        split
        · rename_i call previous waited
          cases previous <;> exact ⟨fact, id, id, id⟩
        all_goals exact ⟨fact, id, id, id⟩
      | refuse call previous waited => cases previous <;> exact ⟨fact, id, id, id⟩
    · cases counts <;> exact ⟨fact, id, id, id⟩
  obtain ⟨nextFact, relies, carries, commits⟩ := step
  refine ⟨inv.epochs, Set.forall_mem_insert.mpr ⟨nextFact, otherFacts⟩, fun needs => ?_⟩
  have supported := inv.supported
  simp only [insert_eq_union, needs_union, supports_union, needs_some,
    supports_some] at supported needs ⊢
  have earlier := supported (needs.imp_right (Or.imp_left relies))
  refine earlier.imp_right (Or.imp_right (Or.imp carries (Or.imp_right ?_)))
  exact And.imp_right (Or.imp_right (Or.imp_right (Or.imp_left commits)))

theorem WakeInv.push (linked : TaskView.Linked ⟨cell, inQueue, insert frame others⟩)
    (pushes : frame.pushes = true) : WakeInv config ⟨afterPush cell frame, True, others⟩ := by
  have fact := inv.facts frame (Set.mem_insert _ _)
  have isQueued : cell.state = .queued :=
    linked.owned frame (Set.mem_insert _ _) .queued (ownedState_of_pushes pushes)
  have keeps : EpochCell config (afterPush cell frame) ∧ Evolves cell (afterPush cell frame) := by
    unfold afterPush
    split
    · rename_i call pc
      refine inv.epochs.sameRun (cell.promise call) rfl rfl rfl (.inl rfl)
        fun born promised => (List.mem_cons.mp promised).symm.imp_right fun same => ?_
      have bornLe : call.born ≤ cell.runs := by
        unfold Frame.pushes at pushes
        split at pushes
        · rename_i previous waited equal
          cases equal
          cases previous
          · exact fact.2.1
          · exact fact.2
        all_goals first | (rename_i equal; cases equal) | cases pushes
      exact ⟨same ▸ bornLe, by simp [isQueued]⟩
    · exact inv.epochs.sameRun cell rfl rfl rfl (.inl rfl) fun _ => .inl
  have stays : (afterPush cell frame).state = .queued ∧ (afterPush cell frame).runs = cell.runs ∧
      (afterPush cell frame).runEpoch = cell.runEpoch := by
    unfold afterPush
    split <;> exact ⟨isQueued, rfl, rfl⟩
  refine ⟨keeps.1, fun live isOther => ?_, fun _ => ?_⟩
  · exact keeps.2.frameFact inv.epochs.epoch_le (fun _ => stays.2)
      (inv.facts live (Set.mem_insert_of_mem _ isOther))
  · rw [supports_none]
    exact .inr (.inr (.inr ⟨stays.1, .inr (.inl trivial)⟩))

end

theorem WakeInv.enter {view : TaskView} (inv : WakeInv config view) (handle : HandleStatus)
    (fact : FrameFact config { view.cell with handle := handle } frame)
    (relies : ¬ frame.relies view.cell.runs) :
    WakeInv config ⟨{ view.cell with handle := handle }, view.inQueue, insert frame view.live⟩ := by
  obtain ⟨epochs, evolves⟩ := inv.epochs.sameRun { view.cell with handle := handle }
    rfl rfl rfl (.inl rfl) fun _ => .inl
  refine ⟨epochs, ?_, fun needs => ?_⟩
  · rintro live (rfl | isOld)
    · exact fact
    · exact evolves.frameFact inv.epochs.epoch_le (fun _ => ⟨rfl, rfl⟩) (inv.facts live isOld)
  · rw [insert_eq_union, needs_union, needs_some] at needs
    rw [insert_eq_union, supports_union, supports_some]
    have earlier := inv.supported
      (needs_none.mpr (needs.imp_right fun either => either.resolve_left relies))
    rw [supports_none] at earlier
    refine earlier.imp_right (Or.imp_right ?_)
    rintro (carries | ⟨isQueued, handedOver | inQueue | commits⟩)
    · exact .inr (.inl carries)
    · exact .inr (.inr ⟨isQueued, .inl handedOver⟩)
    · exact .inr (.inr ⟨isQueued, .inr (.inl inQueue)⟩)
    · exact .inr (.inr ⟨isQueued, .inr (.inr (.inr commits))⟩)

theorem WakeInv.pop {view : TaskView} {task : TaskId} (inv : WakeInv config view)
    (linked : view.Linked) (waiting : view.inQueue) :
    WakeInv config ⟨view.cell, False, insert (.exec task .casStarting) view.live⟩ := by
  refine ⟨inv.epochs, ?_, fun _ => ?_⟩
  · rintro live (rfl | isOld)
    · trivial
    · exact inv.facts live isOld
  · rw [insert_eq_union, supports_union, supports_some]
    exact .inr (.inr (.inr (.inr ⟨linked.queued waiting, .inr (.inr (.inl trivial))⟩)))

/-- No more runs begin than the tag of a request can count. -/
def epochsFit (cell : TaskCell) (_ : Frame) : Prop :=
  cell.runs + 1 < 2 ^ 46

instance (cell : TaskCell) (frame : Frame) : Decidable (epochsFit cell frame) :=
  inferInstanceAs (Decidable (_ < _))

def wakePermits (cell : TaskCell) (frame : Frame) : Prop :=
  epochsFit cell frame ∧ keepsWakes cell frame

theorem WakeInv.move {task : TaskId} {before after : TaskView}
    (inv : WakeInv config before) (linked : before.Linked)
    (move : TaskMove config (accessPermits wakePermits) task before after) :
    WakeInv config after := by
  cases move with
  | idle => exact inv
  | call _ call same valid reaches _ => exact inv.enter before.cell.handle ⟨valid, trivial⟩ id
  | complete => exact inv.enter before.cell.handle trivial id
  | release _ held _ => exact inv.enter .releasing trivial id
  | pop _ waiting alone => exact inv.pop linked waiting
  | access cell inQueue frame others spurious cell' next same apart permitted accesses =>
    exact inv.access linked apart.owner permitted.1 permitted.2 accesses
  | proceed cell inQueue frame next others same apart proceeds =>
    exact inv.proceed (.inl proceeds)
  | count cell inQueue frame next others same apart _ counts => exact inv.proceed (.inr counts)
  | push cell inQueue frame others same apart pushes => exact inv.push linked pushes

end Views

namespace Scheduler

variable {config : Config} {state : SchedulerState}

theorem wakeInv_of_reachable
    (reached : (system config).ReachableUnder (accessAllowed wakePermits) state)
    (task : TaskId) : WakeInv config (view state task) := by
  induction reached with
  | start starts =>
    obtain ⟨handled, rfl⟩ := starts
    refine ⟨⟨?_, ?_, ?_, ?_, ?_, ?_, ?_, ?_⟩, ?_, ?_⟩ <;>
      simp [view, start, TaskCell.allocated]
  | next reachedBefore permitted steps inv =>
    have coherent := coherent_of_reachable reachedBefore.reachable
    exact inv.move (coherent.occupancy.linked task)
      (coherent.view_move (step_move steps) (eventAllowed_of_accessAllowed permitted))

end Scheduler

end AsyncFlow
