import AsyncFlow.FirstSchedule

/-!
# Lifetime of a task

A task has at most two references, the start handle's and the runtime's, which is
dropped after the task is `Done` or when the handle of a task that was never
scheduled is released.  Whoever owns the task keeps the runtime's reference; an
executor in the tail of `finish_pending` no longer owns it, and nothing else keeps
the task for it.
-/

namespace AsyncFlow

open Scheduler Option BitVec Set Frame TaskCell

/-- The reference that the start handle stands for. -/
def HandleStatus.references : HandleStatus → Nat
  | .held | .releasing => 1
  | .absent | .released => 0

def Frame.postsViaHandle : Frame → Bool
  | .post call _ => call.viaHandle
  | _ => false

/-- The frame belongs to `execute`, to a function that finishes a run, or to
`enqueue_pending_blocking`. -/
def Frame.executes : Frame → Bool
  | .exec _ _ | .complete _ _ => true
  | _ => false

def Frame.finishesPending : Frame → Bool
  | .exec _ .pendingTake | .exec _ (.pendingCheck _) | .exec _ (.pendingCas _) => true
  | _ => false

def Frame.dropsReference : Frame → Bool
  | .exec _ .doneRelease | .release _ (.first _) | .release _ .second => true
  | _ => false

/-- The handle is not released while a post through it is under way, and no IO
completion arrives from outside. -/
def liveReferences (view : TaskView) : TaskEvent → Prop
  | .release => ∀ frame ∈ view.live, frame.postsViaHandle = false
  | .complete => False
  | _ => True

/-- The last reference is not dropped while an executor is in the tail of
`finish_pending`. -/
def freedAfterFinish (view : TaskView) : TaskEvent → Prop
  | .access frame => frame.dropsReference = true → view.cell.lifetimeRefs = 1 →
      ∀ other ∈ view.live, other.finishesPending = false
  | _ => True

def lifetimePermits (view : TaskView) (event : TaskEvent) : Prop :=
  liveReferences view event ∧ freedAfterFinish view event

def PostReference (cell : TaskCell) (call : PostCall) : Prop :=
  if call.viaHandle then cell.handle = .held else cell.handle = .absent ∨ 0 < cell.runs

def LifetimeFact (cell : TaskCell) : Frame → Prop
  | .post call _ => PostReference cell call
  | .exec _ _ => cell.handle.references ≠ 0 ∨ cell.runtimeRef = true
  | .complete _ _ => False
  | .release _ .load => cell.handle = .releasing
  | .release _ (.first seen) =>
    cell.handle = .releasing ∧ (seen = .created → cell.state = .created)
  | .release _ .second =>
    cell.handle = .released ∧ cell.state = .created ∧ cell.runtimeRef = true

/-- The counter agrees with the references that are held, and the task is freed
once when there are none. -/
structure ReferencesCounted (cell : TaskCell) : Prop where
  references : cell.lifetimeRefs.toNat = cell.handle.references + if cell.runtimeRef then 1 else 0
  frees : cell.frees = if cell.handle.references = 0 ∧ cell.runtimeRef = false then 1 else 0

structure LifetimeInv (view : TaskView) : Prop where
  counted : ReferencesCounted view.cell
  facts : ∀ frame ∈ view.live, LifetimeFact view.cell frame
  isOver : view.cell.runtimeRef = false → (∀ frame ∈ view.live, frame.ownedState = none) ∧
      (view.cell.state = .done ∨ view.cell.state = .created ∧ view.cell.handle = .released)

theorem ReferencesCounted.drop {cell after : TaskCell} (counted : ReferencesCounted cell)
    (refs : after.lifetimeRefs = cell.lifetimeRefs) (frees : after.frees = cell.frees)
    (one : cell.handle.references + (if cell.runtimeRef then 1 else 0) =
      after.handle.references + (if after.runtimeRef then 1 else 0) + 1) :
    ReferencesCounted after.releaseLifetimeRef := by
  have value := counted.references.trans one
  have notFreed : cell.frees = 0 := by
    rw [counted.frees]
    split
    · rename_i dropped
      simp [dropped] at one
    · rfl
  have last : cell.lifetimeRefs = 1 ↔ after.handle.references = 0 ∧ after.runtimeRef = false := by
    rw [← toNat_inj, value, show (1 : BitVec 32).toNat = 1 from rfl]
    cases after.runtimeRef <;> simp
  refine ⟨?_, ?_⟩
  · simp only [releaseLifetimeRef, refs]
    rw [toNat_sub, value, show (1 : BitVec 32).toNat = 1 from rfl]
    omega
  · simp only [releaseLifetimeRef, refs, frees, notFreed, last]

theorem ReferencesCounted.not_last {cell : TaskCell} {others : Set Frame} {task : TaskId}
    {pc : ExecPc} (counted : ReferencesCounted cell)
    (permitted : cell.lifetimeRefs = 1 → ∀ other ∈ others, other.finishesPending = false)
    (isOther : .exec task pc ∈ others) (notOwner : (exec task pc).ownedState = none) :
    cell.handle.references + (if cell.runtimeRef then 1 else 0) ≠ 1 := by
  intro one
  have finishes := permitted (eq_of_toNat_eq (counted.references.trans one)) _ isOther
  cases pc <;> first | cases notOwner; done | cases finishes

section Accesses

variable {cell cell' : TaskCell} {frame : Frame} {next : Option Frame} {invalidThread : Nat}
  {spurious : Bool}

structure SameReferences (before after : TaskCell) : Prop where
  lifetimeRefs : after.lifetimeRefs = before.lifetimeRefs
  handle : after.handle = before.handle
  runtimeRef : after.runtimeRef = before.runtimeRef
  frees : after.frees = before.frees
  runs : before.runs ≤ after.runs

theorem Frame.access_sameReferences
    (accesses : frame.access invalidThread cell spurious = some (cell', next))
    (keeps : frame.dropsReference = false) : SameReferences cell cell' := by
  cases frame <;> rename_i pc <;> cases pc <;>
    simp only [access, PostCall.access, PostCall.requestSchedule, PostCall.requestWake,
      PostCall.resolveCleared, execAccess, completeAccess, releaseAccess, promise,
      handOver, releaseLifetimeRef] at accesses <;>
    constructor <;> grind -linarith [dropsReference]

theorem ReferencesCounted.of_same (counted : ReferencesCounted cell)
    (same : SameReferences cell cell') : ReferencesCounted cell' := by
  constructor
  · simp only [same.lifetimeRefs, same.handle, same.runtimeRef, counted.references]
  · simp only [same.frees, same.handle, same.runtimeRef, counted.frees]

theorem PostReference.of_same {call : PostCall} (reference : PostReference cell call)
    (same : SameReferences cell cell') : PostReference cell' call := by
  have runs := same.runs
  unfold PostReference at *
  rw [same.handle]
  grind

theorem PostReference.not_created {call : PostCall} (reference : PostReference cell call)
    (scheduled : ScheduleCell cell)
    (lost : cell.handle = .releasing ∨ cell.handle = .released) : cell.state ≠ .created := by
  intro isCreated
  have noRuns := (scheduled.created isCreated).1
  unfold PostReference at reference
  grind

theorem Frame.access_lifetimeFact (fact : LifetimeFact cell frame)
    (accesses : frame.access invalidThread cell spurious = some (cell', next))
    (keeps : frame.dropsReference = false) : ∀ following ∈ next, LifetimeFact cell' following := by
  have same := access_sameReferences accesses keeps
  intro following isNext
  rw [mem_def.mp isNext] at accesses
  cases frame with
  | post call pc =>
    have reference := PostReference.of_same fact same
    -- The first access only sets `born` of the call.
    have goesOn : ∃ call' pc', following = .post call' pc' ∧ call'.viaHandle = call.viaHandle := by
      cases pc <;>
        simp only [access, PostCall.access, PostCall.requestSchedule,
          PostCall.requestWake, PostCall.resolveCleared] at accesses <;>
        grind
    obtain ⟨call', pc', rfl, sameHandle⟩ := goesOn
    change PostReference cell' call'
    rw [PostReference, sameHandle]
    exact reference
  | exec task pc =>
    have goesOn : ∃ pc', following = .exec task pc' := by
      cases pc <;> simp only [access, execAccess] at accesses <;> grind
    obtain ⟨pc', rfl⟩ := goesOn
    simp only [LifetimeFact, same.handle, same.runtimeRef]
    exact fact
  | complete task pc => exact fact.elim
  | release task pc =>
    cases pc with
    | load =>
      cases accesses
      exact ⟨fact, id⟩
    | first seen => cases keeps
    | second => cases keeps

theorem Frame.access_while_created
    (linked : ∀ known, frame.ownedState = some known → cell.state = known)
    (isCreated : cell.state = .created) (noPost : ∀ call pc, frame ≠ .post call pc)
    (accesses : frame.access invalidThread cell spurious = some (cell', next)) :
    cell'.state = .created ∧ ∀ following ∈ next, following.ownedState = none := by
  rw [isCreated] at linked
  cases frame with
  | post call pc => exact absurd rfl (noPost call pc)
  | exec task pc | complete task pc | release task pc =>
    cases pc <;> simp [ownedState] at linked <;>
      simp only [access, execAccess, completeAccess, releaseAccess, handOver,
        releaseLifetimeRef] at accesses <;>
      grind [ownedState]

end Accesses

section Moves

variable {cell cell' : TaskCell} {frame : Frame} {next : Option Frame} {others : Set Frame}
  {inQueue : Prop} {invalidThread : Nat} {spurious : Bool}

theorem LifetimeInv.keep (inv : LifetimeInv ⟨cell, inQueue, insert frame others⟩)
    (linked : TaskView.Linked ⟨cell, inQueue, insert frame others⟩)
    (scheduled : ScheduleCell cell) (keeps : frame.dropsReference = false)
    (accesses : frame.access invalidThread cell spurious = some (cell', next)) :
    LifetimeInv ⟨cell', inQueue, { following | following ∈ next } ∪ others⟩ := by
  have fact := inv.facts frame (mem_insert _ _)
  have frameLinked := linked.owned frame (mem_insert _ _)
  have same := access_sameReferences accesses keeps
  -- A created task without a handle stays so, because nobody can post it.
  have staysCreated : cell.state = .created → cell.handle = .releasing ∨ cell.handle = .released →
      cell'.state = .created ∧ ∀ following ∈ next, following.ownedState = none := by
    intro isCreated lost
    refine access_while_created frameLinked isCreated (fun call pc isPost => ?_) accesses
    subst isPost
    exact PostReference.not_created fact scheduled lost isCreated
  refine ⟨inv.counted.of_same same, ?_, ?_⟩
  · rintro live (isNext | isOther)
    · exact access_lifetimeFact fact accesses keeps live isNext
    · have liveFact := inv.facts live (mem_insert_of_mem _ isOther)
      cases live with
      | post call pc => exact PostReference.of_same liveFact same
      | exec task pc =>
        simp only [LifetimeFact, same.handle, same.runtimeRef]
        exact liveFact
      | complete task pc => exact liveFact
      | release task pc =>
        cases pc with
        | load => exact same.handle.trans liveFact
        | first seen =>
          exact ⟨same.handle.trans liveFact.1, fun wasCreated =>
            (staysCreated (liveFact.2 wasCreated) (.inl liveFact.1)).1⟩
        | second =>
          exact ⟨same.handle.trans liveFact.1, (staysCreated liveFact.2.1 (.inr liveFact.1)).1,
            same.runtimeRef.trans liveFact.2.2⟩
  · intro gone
    obtain ⟨noOwners, ended⟩ := inv.isOver (same.runtimeRef.symm.trans gone)
    obtain ⟨free, otherOwners⟩ := forall_mem_insert.mp noOwners
    rcases ended with isDone | ⟨isCreated, released⟩
    · rcases access_ownership accesses frameLinked with
        ⟨_, sameState, nothing⟩ | ⟨owns | isCreated | isPending, _⟩
      · exact ⟨fun live found => found.elim (nothing live) (otherOwners live), .inl (sameState.trans isDone)⟩
      · exact absurd free owns
      · rw [isDone] at isCreated
        cases isCreated
      · rw [isDone] at isPending
        cases isPending
    · obtain ⟨stillCreated, nothing⟩ := staysCreated isCreated (.inr released)
      exact ⟨fun live found => found.elim (nothing live) (otherOwners live),
        .inr ⟨stillCreated, same.handle.trans released⟩⟩

variable {task : TaskId}

theorem LifetimeInv.doneRelease
    (inv : LifetimeInv ⟨cell, inQueue, insert (.exec task .doneRelease) others⟩)
    (linked : TaskView.Linked ⟨cell, inQueue, insert (.exec task .doneRelease) others⟩)
    (apart : Apart (.exec task .doneRelease) inQueue others)
    (permitted : cell.lifetimeRefs = 1 → ∀ other ∈ others, other.finishesPending = false) :
    LifetimeInv ⟨releaseLifetimeRef { cell with runtimeRef := false }, inQueue, others⟩ := by
  have isDone : cell.state = .done :=
    linked.owned _ (mem_insert _ _) .done rfl
  have holds : cell.runtimeRef = true := by
    by_contra gone
    have free := (inv.isOver (Bool.eq_false_of_not_eq_true gone)).1 _ (mem_insert _ _)
    cases free
  have otherOwners := (apart.owner (some_ne_none _)).2
  refine ⟨inv.counted.drop rfl rfl ?_, fun live isOther => ?_, fun _ => ⟨otherOwners, .inl isDone⟩⟩
  · simp [holds]
  · have liveFact := inv.facts live (mem_insert_of_mem _ isOther)
    have notOwner := otherOwners live isOther
    cases live with
    | post call pc => exact liveFact
    | exec other pc =>
      refine .inl fun noHandle => inv.counted.not_last permitted isOther notOwner ?_
      have noHandle : cell.handle.references = 0 := noHandle
      simp [noHandle, holds]
    | complete other pc => exact liveFact
    | release other pc =>
      have notCreated : cell.state ≠ .created := by simp [isDone]
      cases pc with
      | load => exact liveFact
      | first seen => exact ⟨liveFact.1, fun seenCreated =>
        absurd (liveFact.2 seenCreated) notCreated⟩
      | second => exact absurd liveFact.2.1 notCreated

theorem LifetimeInv.releaseFirst {seen : TaskState}
    (inv : LifetimeInv ⟨cell, inQueue, insert (.release task (.first seen)) others⟩)
    (apart : Apart (.release task (.first seen)) inQueue others)
    (permitted : cell.lifetimeRefs = 1 → ∀ other ∈ others, other.finishesPending = false) :
    LifetimeInv ⟨releaseLifetimeRef { cell with handle := .released }, inQueue,
      { following | following ∈ if seen = .created then
        some (.release task .second) else none } ∪ others⟩ := by
  obtain ⟨releasing, seenCreated⟩ := inv.facts _ (mem_insert _ _)
  have releasing : cell.handle = .releasing := releasing
  have isOver : cell.runtimeRef = false →
      (∀ live ∈ others, live.ownedState = none) ∧ cell.state = .done := by
    intro gone
    obtain ⟨noOwners, isDone | ⟨_, released⟩⟩ := inv.isOver gone
    · exact ⟨(forall_mem_insert.mp noOwners).2, isDone⟩
    · rw [show cell.handle = .released from released] at releasing
      cases releasing
  refine ⟨inv.counted.drop rfl rfl ?_, ?_, fun gone => ⟨?_, .inl (isOver gone).2⟩⟩
  · simp only [releasing, HandleStatus.references]
    omega
  · rintro live (isNext | isOther)
    · have wasCreated : seen = .created := by
        by_contra other
        simp [other] at isNext
      rw [if_pos wasCreated] at isNext
      cases isNext
      refine ⟨rfl, seenCreated wasCreated, ?_⟩
      by_contra gone
      have isDone := (isOver (Bool.eq_false_of_not_eq_true gone)).2
      rw [show cell.state = .created from seenCreated wasCreated] at isDone
      cases isDone
    · have liveFact := inv.facts live (mem_insert_of_mem _ isOther)
      cases live with
      | post call pc =>
        have reference : PostReference cell call := liveFact
        change PostReference _ call
        unfold PostReference at reference ⊢
        simp only [releasing] at reference
        simp only [releaseLifetimeRef]
        split at reference
        · cases reference
        · rename_i raw
          rw [if_neg raw]
          exact .inr (reference.resolve_left (by simp))
      | exec other pc =>
        refine .inr ?_
        change cell.runtimeRef = true
        by_contra gone
        have gone := Bool.eq_false_of_not_eq_true gone
        refine inv.counted.not_last permitted isOther ((isOver gone).1 _ isOther) ?_
        simp [gone, releasing, HandleStatus.references]
      | complete other pc => exact liveFact
      | release other pc =>
        have none := apart.releaser (some_ne_none _) _ isOther
        cases none
  · rintro live (isNext | isOther)
    · simp only [Set.mem_ofPred_eq] at isNext
      split at isNext
      · cases isNext
        rfl
      · cases isNext
    · exact (isOver gone).1 live isOther

theorem LifetimeInv.releaseSecond
    (inv : LifetimeInv ⟨cell, inQueue, insert (.release task .second) others⟩)
    (linked : TaskView.Linked ⟨cell, inQueue, insert (.release task .second) others⟩)
    (scheduled : ScheduleCell cell) (apart : Apart (.release task .second) inQueue others)
    (permitted : cell.lifetimeRefs = 1 → ∀ other ∈ others, other.finishesPending = false) :
    LifetimeInv ⟨releaseLifetimeRef { cell with runtimeRef := false }, inQueue, others⟩ := by
  obtain ⟨released, isCreated, holds⟩ := inv.facts _ (mem_insert _ _)
  have released : cell.handle = .released := released
  have holds : cell.runtimeRef = true := holds
  have otherOwners : ∀ live ∈ others, live.ownedState = none := by
    intro live isOther
    by_contra owns
    obtain ⟨known, knows⟩ := ne_none_iff_exists'.mp owns
    have stateKnown : cell.state = known :=
      linked.owned live (mem_insert_of_mem _ isOther) known knows
    rw [← stateKnown, isCreated] at knows
    exact live.ownedState_not_idle.1 knows
  refine ⟨inv.counted.drop rfl rfl ?_, fun live isOther => ?_,
    fun _ => ⟨otherOwners, .inr ⟨isCreated, released⟩⟩⟩
  · simp [holds]
  · have liveFact := inv.facts live (mem_insert_of_mem _ isOther)
    cases live with
    | post call pc =>
      exact absurd isCreated (PostReference.not_created liveFact scheduled (.inr released))
    | exec other pc =>
      refine absurd ?_ (inv.counted.not_last permitted isOther (otherOwners _ isOther))
      simp [holds, released, HandleStatus.references]
    | complete other pc => exact liveFact
    | release other pc =>
      have none := apart.releaser (some_ne_none _) _ isOther
      cases none

section

variable (inv : LifetimeInv ⟨cell, inQueue, insert frame others⟩)

include inv

theorem LifetimeInv.access (linked : TaskView.Linked ⟨cell, inQueue, insert frame others⟩)
    (scheduled : ScheduleCell cell) (apart : Apart frame inQueue others)
    (permitted : freedAfterFinish ⟨cell, inQueue, insert frame others⟩ (.access frame))
    (accesses : frame.access invalidThread cell spurious = some (cell', next)) :
    LifetimeInv ⟨cell', inQueue, { following | following ∈ next } ∪ others⟩ := by
  cases drops : frame.dropsReference with
  | false => exact inv.keep linked scheduled drops accesses
  | true =>
    have othersFinished : cell.lifetimeRefs = 1 →
        ∀ other ∈ others, other.finishesPending = false := fun last other isOther =>
      permitted drops last other (mem_insert_of_mem _ isOther)
    unfold dropsReference at drops
    split at drops
    · obtain ⟨rfl, rfl⟩ := Prod.mk.inj (Option.some.inj accesses)
      simpa using inv.doneRelease linked apart othersFinished
    · obtain ⟨rfl, rfl⟩ := Prod.mk.inj (Option.some.inj accesses)
      exact inv.releaseFirst apart othersFinished
    · obtain ⟨rfl, rfl⟩ := Prod.mk.inj (Option.some.inj accesses)
      simpa using inv.releaseSecond linked scheduled apart othersFinished
    · cases drops

theorem LifetimeInv.proceed {following : Frame}
    (proceeds : Proceeds frame following ∨ Counts frame following) :
    LifetimeInv ⟨cell, inQueue, insert following others⟩ := by
  obtain ⟨fact, otherFacts⟩ := forall_mem_insert.mp inv.facts
  have nextFact : LifetimeFact cell following := by
    rcases proceeds with proceeds | counts
    · cases proceeds with
      | finish task result => exact fact
      | wait =>
        unfold markWaited
        split <;> exact fact
      | refuse call previous waited => exact fact
    · cases counts <;> exact fact
  have sameOwner : following.ownedState = frame.ownedState :=
    proceeds.elim Proceeds.ownedState fun counts => (ownedState_of_counts counts).1
  refine ⟨inv.counted, forall_mem_insert.mpr ⟨nextFact, otherFacts⟩, fun gone => ?_⟩
  obtain ⟨noOwners, ended⟩ := inv.isOver gone
  obtain ⟨free, otherOwners⟩ := forall_mem_insert.mp noOwners
  exact ⟨forall_mem_insert.mpr ⟨sameOwner.trans free, otherOwners⟩, ended⟩

theorem LifetimeInv.push (pushes : frame.pushes = true) :
    LifetimeInv ⟨afterPush cell frame, True, others⟩ := by
  have same : SameReferences cell (afterPush cell frame) := by
    unfold afterPush
    split <;> exact ⟨rfl, rfl, rfl, rfl, le_rfl⟩
  have sameFacts : ∀ live, LifetimeFact cell live → LifetimeFact (afterPush cell frame) live := by
    intro live fact
    unfold afterPush
    split <;> exact fact
  refine ⟨inv.counted.of_same same, fun live isOther => ?_, fun gone => ?_⟩
  · exact sameFacts live (inv.facts live (mem_insert_of_mem _ isOther))
  · have free := (inv.isOver (same.runtimeRef.symm.trans gone)).1 frame (mem_insert _ _)
    rw [ownedState_of_pushes pushes] at free
    cases free

end

variable {view : TaskView}

theorem LifetimeInv.call {call : PostCall} (inv : LifetimeInv view)
    (reaches : reachesTask view.cell call = true) :
    LifetimeInv { view with live := insert (.post call .begin) view.live } := by
  have reference : PostReference view.cell call := by
    unfold reachesTask at reaches
    unfold PostReference
    cases via : call.viaHandle <;> simpa [via] using reaches
  refine ⟨inv.counted, forall_mem_insert.mpr ⟨reference, inv.facts⟩, fun gone => ?_⟩
  obtain ⟨noOwners, ended⟩ := inv.isOver gone
  exact ⟨forall_mem_insert.mpr ⟨rfl, noOwners⟩, ended⟩

theorem LifetimeInv.release (inv : LifetimeInv view) (held : view.cell.handle = .held)
    (permitted : ∀ frame ∈ view.live, frame.postsViaHandle = false) : LifetimeInv { view with
      cell := { view.cell with handle := .releasing }
      live := insert (.release task .load) view.live } := by
  have sameReferences : view.cell.handle.references = HandleStatus.references .releasing := by
    rw [held]
    rfl
  refine ⟨⟨?_, ?_⟩, ?_, fun gone => ?_⟩
  · rw [← sameReferences]
    exact inv.counted.references
  · rw [← sameReferences]
    exact inv.counted.frees
  · rintro live (rfl | isOld)
    · rfl
    · have fact := inv.facts live isOld
      cases live with
      | post call pc =>
        have raw : call.viaHandle = false := permitted _ isOld
        have reference : PostReference view.cell call := fact
        simp only [LifetimeFact, PostReference, raw, held] at reference ⊢
        exact .inr (reference.resolve_left (by simp))
      | exec other pc => exact .inl (by simp [HandleStatus.references])
      | complete other pc => exact fact
      | release other pc =>
        cases pc with
        | load => rfl
        | first seen => exact ⟨rfl, fact.2⟩
        | second =>
          rw [show view.cell.handle = .released from fact.1] at held
          cases held
  · obtain ⟨noOwners, isDone | ⟨_, released⟩⟩ := inv.isOver gone
    · exact ⟨forall_mem_insert.mpr ⟨rfl, noOwners⟩, .inl isDone⟩
    · rw [released] at held
      cases held

theorem LifetimeInv.pop (inv : LifetimeInv view) (linked : view.Linked) (waiting : view.inQueue) :
    LifetimeInv { view with
      inQueue := False
      live := insert (.exec task .casStarting) view.live } := by
  have isQueued := linked.queued waiting
  have holds : view.cell.runtimeRef = true := by
    by_contra gone
    rcases (inv.isOver (Bool.eq_false_of_not_eq_true gone)).2 with isDone | ⟨isCreated, _⟩
    · rw [isQueued] at isDone
      cases isDone
    · rw [isQueued] at isCreated
      cases isCreated
  refine ⟨inv.counted, forall_mem_insert.mpr ⟨.inr holds, inv.facts⟩, fun gone => ?_⟩
  rw [show view.cell.runtimeRef = false from gone] at holds
  cases holds

end Moves

theorem LifetimeInv.move {config : Config} {task : TaskId} {before after : TaskView}
    (inv : LifetimeInv before) (linked : before.Linked) (scheduled : ScheduleInv before)
    (move : TaskMove config lifetimePermits task before after) : LifetimeInv after := by
  cases move with
  | idle => exact inv
  | call _ call _ _ reaches _ => exact inv.call reaches
  | complete _ permitted => exact permitted.1.elim
  | release _ held permitted => exact inv.release held permitted.1
  | pop _ waiting _ => exact inv.pop linked waiting
  | access cell inQueue frame others spurious cell' next _ apart permitted accesses =>
    exact inv.access linked scheduled.cell apart permitted.2 accesses
  | proceed cell inQueue frame next others _ _ proceeds => exact inv.proceed (.inl proceeds)
  | count cell inQueue frame next others _ _ _ counts => exact inv.proceed (.inr counts)
  | push cell inQueue frame others _ _ pushes => exact inv.push pushes

theorem LifetimeInv.not_freed {view : TaskView} (inv : LifetimeInv view) {frame : Frame}
    (live : frame ∈ view.live) (executes : frame.executes = true) : view.cell.frees = 0 := by
  have fact := inv.facts frame live
  rw [inv.counted.frees]
  refine if_neg fun ⟨noHandle, gone⟩ => ?_
  cases frame with
  | exec task pc =>
    rcases fact with kept | kept
    · exact kept noHandle
    · rw [gone] at kept
      cases kept
  | complete task pc => exact fact
  | post call pc => cases executes
  | release task pc => cases executes

namespace Scheduler

variable {config : Config} {state : SchedulerState}

theorem lifetimeInv_of_reachable
    (reached : (system config).ReachableUnder (eventAllowed lifetimePermits) state)
    (task : TaskId) : LifetimeInv (view state task) := by
  induction reached with
  | start starts =>
    obtain ⟨handled, rfl⟩ := starts
    refine ⟨⟨?_, ?_⟩, ?_, ?_⟩ <;> cases given : handled task <;>
      simp [view, start, allocated, HandleStatus.references, given]
  | next reachedBefore permitted steps inv =>
    have coherent := coherent_of_reachable reachedBefore.reachable
    exact inv.move (coherent.occupancy.linked task)
      (scheduleInv_of_reachable reachedBefore.reachable task)
      (coherent.view_move (step_move steps) permitted)

theorem eventAllowed_lifetimePermits {action : Action} : eventAllowed lifetimePermits state action ↔
      eventAllowed liveReferences state action ∧ eventAllowed freedAfterFinish state action :=
  forall₂_and

/-- A task is freed at most once, and no executor works on it afterwards, when
the last reference is not dropped during the tail of a `finish_pending`. -/
theorem freed_not_executed (reached : (system config).ReachableUnder
      (fun state action => eventAllowed liveReferences state action ∧
        eventAllowed freedAfterFinish state action) state) (task : TaskId) :
    (state.cells task).frees ≤ 1 ∧
      (0 < (state.cells task).frees → ∀ thread, ∀ frame ∈ state.callStack thread,
        frame.task = task → frame.executes = false) := by
  have inv := lifetimeInv_of_reachable
    (reached.mono fun _ _ => eventAllowed_lifetimePermits.mpr) task
  have frees : (state.cells task).frees = _ := inv.counted.frees
  refine ⟨?_, fun freed thread frame live sameTask => ?_⟩
  · rw [frees]
    split <;> omega
  · by_contra executes
    have notFreed : (state.cells task).frees = 0 :=
      inv.not_freed ⟨sameTask, thread, live⟩ (Bool.eq_true_of_not_eq_false executes)
    omega

instance (threads : List Thread) (state : SchedulerState) (task : TaskId) (event : TaskEvent) :
    Decidable (liveReferences (listedView threads state task) event) :=
  match event with
  | .release => inferInstanceAs (Decidable (∀ frame ∈ _, _))
  | .complete => inferInstanceAs (Decidable False)
  | .call _ | .access _ | .count _ => inferInstanceAs (Decidable True)

instance (threads : List Thread) (state : SchedulerState) (task : TaskId) (event : TaskEvent) :
    Decidable (lifetimePermits (listedView threads state task) event) :=
  match event with
  | .access _ => inferInstanceAs (Decidable (True ∧ (_ → _ → ∀ frame ∈ _, _)))
  | .release => inferInstanceAs (Decidable ((∀ frame ∈ _, _) ∧ True))
  | .complete => inferInstanceAs (Decidable (False ∧ True))
  | .call _ | .count _ => inferInstanceAs (Decidable (True ∧ True))

def finishDone (executor : Nat) : List Action :=
  .finish executor .done :: accesses (.executor executor) 2 ++
    [.count (.executor executor), .access (.executor executor) false]

def releasedRun : List Action :=
  firstPost (.external 0) (postOf 0 0) ++ beginRun (.external 0) ++ finishDone 0 ++
    .release (.external 0) 0 :: accesses (.external 0) 2

theorem releasedRun_not_executed : ∃ state, (system (twoExecutors .reject)).ReachableUnder
        (fun state action => eventAllowed liveReferences state action ∧
          eventAllowed freedAfterFinish state action) state ∧ (state.cells 0).frees = 1 ∧
      ∀ thread, ∀ frame ∈ state.callStack thread, frame.task = 0 → frame.executes = false := by
  obtain ⟨state, reached, freed⟩ := (system (twoExecutors .reject)).exists_reachableUnder
    (eventChecked lifetimePermits [.external 0, .executor 0])
    ⟨fun _ => true, rfl⟩ releasedRun (fun state => (state.cells 0).frees = 1) (by decide)
  have reached := (reachable_of_eventChecked reached).mono fun _ _ =>
    eventAllowed_lifetimePermits.mp
  exact ⟨state, reached, freed, (freed_not_executed reached 0).2 (by omega)⟩

/-- Executor 0 stops after its store of `Pending`, while executor 1 runs the task to
its end and the handle is released. -/
def freedBeforeTake : List Action :=
  firstPost (.external 0) (postOf 0 0) ++ beginRun (.external 0) ++
    [.finish 0 .pending] ++ accesses (.executor 0) 1 ++
    laterPost (.external 0) (postOf 0 1) ++ beginRun (.external 1) ++ finishDone 1 ++
    .release (.external 0) 0 :: accesses (.external 0) 2

/-- Executor 0 goes on to exchange a field of the freed task. -/
theorem finish_pending_touches_freed_task : ∃ state, (system (twoExecutors .reject)).ReachableUnder
        (eventAllowed liveReferences) state ∧ (state.cells 0).frees = 1 ∧
      state.callStack (.executor 0) = [.exec 0 .pendingTake] ∧
      (step (twoExecutors .reject) state (.access (.executor 0) false)).isSome = true := by
  obtain ⟨state, reached, observed⟩ := (system (twoExecutors .reject)).exists_reachableUnder
    (eventChecked liveReferences [.external 0, .executor 0, .executor 1])
    ⟨fun _ => true, rfl⟩ freedBeforeTake (fun state => (state.cells 0).frees = 1 ∧
      state.callStack (.executor 0) = [.exec 0 .pendingTake] ∧
      (step (twoExecutors .reject) state (.access (.executor 0) false)).isSome = true) (by decide)
  exact ⟨state, reachable_of_eventChecked reached, observed⟩

end Scheduler

end AsyncFlow
