import AsyncFlow.ListenerEntries
import Mathlib.Data.List.Nodup
import Mathlib.Data.List.Perm.Subperm

/-!
# Starts of listeners

An entry that is starting waits for one result from each shard that has not
reported success.  As long as every start begins when no message about an earlier
start is on its way, all messages belong to the last start and each shard reports
to it at most once.
-/

namespace AsyncFlow

open List

namespace StartProtocol

open ServerState

variable {config : ServerConfig} {env : ControlEnv} {state after : ServerState}
  {id : ListenerId} {entry : ListenerEntry} {slot shard attempt : Nat} {succeeded : Bool}

structure Starting (state : ServerState) (entry : ListenerEntry) (attempt : Nat) : Prop where
  running : state.running = true
  starting : entry.startingShards = entry.config.installShards
  nodup : entry.startedShards.Nodup
  subset : ∀ shard ∈ entry.startedShards, shard ∈ entry.config.installShards
  pending : entry.pendingStartShards + entry.startedShards.length =
    entry.config.installShards.length
  flight : ∀ shard, state.messages entry.id shard = [] ∨
    shard ∈ entry.config.installShards ∧ shard ∉ entry.startedShards ∧
      ∃ result, state.messages entry.id shard = [⟨result, attempt⟩]
  reportedOk : ∀ shard ∈ entry.startedShards, ⟨shard, ⟨entry.id, true, attempt⟩⟩ ∈ state.reports
  reported : ∀ shard succeeded, ⟨some succeeded, attempt⟩ ∈ state.messages entry.id shard →
    ⟨shard, ⟨entry.id, succeeded, attempt⟩⟩ ∈ state.reports
  errors : ∀ shard, ⟨shard, ⟨entry.id, false, attempt⟩⟩ ∈ state.reports →
    ⟨some false, attempt⟩ ∈ state.messages entry.id shard

structure Activated (state : ServerState) (entry : ListenerEntry) (attempt : Nat) : Prop where
  quiet : ∀ shard, state.messages entry.id shard = []
  reportedOk : ∀ shard ∈ entry.config.installShards,
    ⟨shard, ⟨entry.id, true, attempt⟩⟩ ∈ state.reports
  noErrors : ∀ shard, ⟨shard, ⟨entry.id, false, attempt⟩⟩ ∉ state.reports

structure EntryBase (config : ServerConfig) (state : ServerState) (entry : ListenerEntry) :
    Prop where
  nodup : entry.config.installShards.Nodup
  inside : ∀ shard ∈ entry.config.installShards, shard < config.threadCount
  own : ∀ attempt, entry.attempt = some attempt → attempt < state.attempts ∧
    ∀ shard, ∀ message ∈ state.messages entry.id shard, message.attempt = attempt

structure EntryInv (config : ServerConfig) (state : ServerState) (entry : ListenerEntry) : Prop
    extends EntryBase config state entry where
  starting : entry.phase = .starting →
    ∃ attempt, entry.attempt = some attempt ∧ Starting state entry attempt
  active : entry.phase = .active →
    ∃ attempt, entry.attempt = some attempt ∧ Activated state entry attempt
  stopped : entry.phase = .configured → entry.attempt.isSome = true → entry.stopped = true

structure Inv (config : ServerConfig) (hole : Option Nat) (state : ServerState) : Prop where
  free : FreeSlots state
  slots : ∀ slot entry, state.entryAt slot = some entry → entry.id.slot = slot
  entries : ∀ slot entry, hole ≠ some slot → state.entryAt slot = some entry →
    EntryInv config state entry
  bounded : ∀ id shard, ∀ message ∈ state.messages id shard, message.attempt < state.attempts
  reports : ∀ report ∈ state.reports, report.result.attempt < state.attempts
  outside : ∀ id shard, config.threadCount ≤ shard → state.messages id shard = []

/-! ### Steps that are not about an entry -/

structure KeepsFor (id : ListenerId) (state after : ServerState) : Prop where
  messages : ∀ shard, after.messages id shard = state.messages id shard
  more : ∀ report ∈ state.reports, report ∈ after.reports
  known : ∀ report ∈ after.reports, report.result.id = id → report ∈ state.reports
  attempts : state.attempts ≤ after.attempts
  running : after.running = state.running

theorem KeepsFor.of_keepsStarts (keeps : KeepsStarts state after) : KeepsFor id state after where
  messages := keeps.messages id
  more := fun _ inside => keeps.reports ▸ inside
  known := fun _ inside _ => keeps.reports ▸ inside
  attempts := Nat.le_of_eq keeps.attempts.symm
  running := keeps.running

theorem Starting.keep (starting : Starting state entry attempt)
    (keeps : KeepsFor entry.id state after) : Starting after entry attempt :=
  { starting with
    running := keeps.running.trans starting.running
    flight := fun shard => by
      rw [keeps.messages]
      exact starting.flight shard
    reportedOk := fun shard started => keeps.more _ (starting.reportedOk shard started)
    reported := fun shard succeeded => by
      rw [keeps.messages]
      exact fun inside => keeps.more _ (starting.reported shard succeeded inside)
    errors := fun shard isReport => by
      rw [keeps.messages]
      exact starting.errors shard (keeps.known _ isReport rfl) }

theorem Activated.keep (active : Activated state entry attempt)
    (keeps : KeepsFor entry.id state after) : Activated after entry attempt where
  quiet := fun shard => (keeps.messages shard).trans (active.quiet shard)
  reportedOk := fun shard installed => keeps.more _ (active.reportedOk shard installed)
  noErrors := fun shard isReport => active.noErrors shard (keeps.known _ isReport rfl)

theorem EntryInv.keep (inv : EntryInv config state entry) (keeps : KeepsFor entry.id state after) :
    EntryInv config after entry :=
  { inv with
    own := fun attempt isAttempt => by
      obtain ⟨below, all⟩ := inv.own attempt isAttempt
      refine ⟨Nat.lt_of_lt_of_le below keeps.attempts, fun shard message => ?_⟩
      rw [keeps.messages]
      exact all shard message
    starting := fun isStarting => by
      obtain ⟨attempt, isAttempt, starting⟩ := inv.starting isStarting
      exact ⟨attempt, isAttempt, starting.keep keeps⟩
    active := fun isActive => by
      obtain ⟨attempt, isAttempt, active⟩ := inv.active isActive
      exact ⟨attempt, isAttempt, active.keep keeps⟩ }

theorem Inv.keep {hole : Option Nat} (inv : Inv config hole state) (keeps : KeepsStarts state after)
    (listeners : after.listeners = state.listeners)
    (freeSlots : after.freeListenerSlots = state.freeListenerSlots) : Inv config hole after where
  free := ⟨freeSlots ▸ inv.free.nodup, fun slot isFree => by
    rw [entryAt_congr listeners]
    exact inv.free.vacant slot (freeSlots ▸ isFree)⟩
  slots := fun slot entry present => inv.slots slot entry (entryAt_congr listeners ▸ present)
  entries := fun slot entry outside present =>
    (inv.entries slot entry outside (entryAt_congr listeners ▸ present)).keep
      (.of_keepsStarts keeps)
  bounded := fun id shard message => by
    rw [keeps.messages, keeps.attempts]
    exact inv.bounded id shard message
  reports := fun report => by
    rw [keeps.reports, keeps.attempts]
    exact inv.reports report
  outside := fun id shard beyond => by
    rw [keeps.messages]
    exact inv.outside id shard beyond

theorem Inv.tasks (inv : Inv config none state) (keeps : KeepsStarts state after)
    (only : OnlyTasks state after) : Inv config none after := by
  obtain ⟨_, rfl⟩ := only
  exact inv.keep keeps rfl rfl

/-! ### The entry of one slot changes -/

theorem Inv.hole (inv : Inv config none state) (slot : Nat) : Inv config (some slot) state :=
  { inv with entries := fun own entry _ => inv.entries own entry nofun }

theorem Inv.fill (inv : Inv config (some slot) state)
    (filled : ∀ entry, state.entryAt slot = some entry → EntryInv config state entry) :
    Inv config none state :=
  { inv with
    entries := fun own entry _ present => by
      by_cases same : slot = own
      · subst same
        exact filled entry present
      · exact inv.entries own entry (fun isHole => same (Option.some.inj isHole)) present }

theorem Inv.setEntry (inv : Inv config (some slot) state) {changed : ListenerEntry}
    (present : state.entryAt slot = some entry) (changedInv : EntryInv config state changed)
    (sameId : changed.id = entry.id) : Inv config none (state.setEntry slot changed) := by
  have keeps : ∀ id, KeepsFor id state (state.setEntry slot changed) := fun id =>
    .of_keepsStarts ⟨fun _ _ => rfl, rfl, rfl, rfl⟩
  have entries := fun own => entryAt_setEntry (lt_of_entryAt present) own changed
  refine { inv with
    free := inv.free.setEntry present changed
    slots := fun own other isOther => ?_
    entries := fun own other _ isOther => ?_ }
  · rw [entries] at isOther
    split at isOther
    next same =>
      cases isOther
      rw [sameId, inv.slots slot entry present, same]
    · exact inv.slots own other isOther
  · rw [entries] at isOther
    split at isOther
    · cases isOther
      exact changedInv.keep (keeps _)
    next different =>
      have outside : some slot ≠ some own := fun same => different (Option.some.inj same).symm
      exact (inv.entries own other outside isOther).keep (keeps _)

theorem EntryBase.settle (base : EntryBase config state entry) (phase : ListenerPhase)
    (active : List Nat) (notStarting : phase ≠ .starting) (notActive : phase ≠ .active)
    (stopped : phase = .configured → entry.attempt.isSome = true → entry.stopped = true) :
    EntryInv config state (clearProgress entry phase active) :=
  { base with
    starting := fun isStarting => absurd isStarting notStarting
    active := fun isActive => absurd isActive notActive
    stopped := stopped }

theorem inv_failStart (inv : Inv config (some entry.id.slot) state)
    (present : state.entryAt entry.id.slot = some entry) (base : EntryBase config state entry)
    (started : List Nat) : Inv config none (state.failStart config env entry started) := by
  have failed : EntryInv config state (clearProgress entry .failed []) :=
    base.settle .failed [] nofun nofun nofun
  exact (inv.setEntry present failed rfl).tasks (keepsStarts_scheduleRemoves _ _)
    (onlyTasks_scheduleRemoves _ _)

/-! ### The control thread handles a result -/

def withResult (state : ServerState) (shard : Nat) (result : StartResult) : ServerState :=
  { state with results := Function.update state.results shard (result :: state.results shard) }

variable {result : StartResult}

theorem messages_withResult_of_ne {own : Nat} (other : own ≠ shard ∨ result.id ≠ id) :
    (withResult state shard result).messages id own = state.messages id own := by
  unfold messages withResult
  by_cases same : own = shard
  · subst same
    simp [StartResult.startMessage, other.resolve_left (not_not_intro rfl)]
  · simp [same]

theorem messages_withResult (result : StartResult) :
    ((withResult state shard result).messages result.id shard).Perm
      (⟨some result.succeeded, result.attempt⟩ :: state.messages result.id shard) := by
  unfold messages withResult
  simp only [Function.update_self, filterMap_cons, StartResult.startMessage, if_pos]
  exact perm_middle

theorem mem_messages_withResult {own : Nat} {message : StartMessage}
    (inside : message ∈ state.messages id own) :
    message ∈ (withResult state shard result).messages id own := by
  by_cases isOwn : own = shard ∧ result.id = id
  · obtain ⟨rfl, rfl⟩ := isOwn
    exact (messages_withResult result).symm.subset (mem_cons_of_mem _ inside)
  · rwa [messages_withResult_of_ne (Decidable.not_and_iff_or_not.mp isOwn)]

theorem EntryBase.drop (base : EntryBase config (withResult state shard result) entry) :
    EntryBase config state entry :=
  { base with
    own := fun attempt isAttempt => by
      obtain ⟨below, all⟩ := base.own attempt isAttempt
      exact ⟨below, fun shard message inside => all shard message
        (mem_messages_withResult inside)⟩ }

theorem Inv.drop (inv : Inv config none (withResult state shard result)) :
    Inv config (some result.id.slot) state where
  free := ⟨inv.free.nodup, inv.free.vacant⟩
  slots := inv.slots
  entries := fun slot entry outside present => by
    have other : result.id ≠ entry.id := by
      intro same
      apply outside
      rw [same, inv.slots slot entry present]
    exact (inv.entries slot entry nofun present).keep
      ⟨fun _ => (messages_withResult_of_ne (.inr other)).symm, fun _ => id, fun _ inside _ => inside,
        Nat.le_refl _, rfl⟩
  bounded := fun id shard message inside =>
    inv.bounded id shard message (mem_messages_withResult inside)
  reports := inv.reports
  outside := fun id shard beyond => by
    refine eq_nil_iff_forall_not_mem.mpr fun message inside => ?_
    have none := inv.outside id shard beyond
    exact eq_nil_iff_forall_not_mem.mp none message (mem_messages_withResult inside)

theorem Starting.of_withResult (starting : Starting (withResult state shard result) entry attempt)
    (isEntry : entry.id = result.id) :
    result.attempt = attempt ∧ state.messages entry.id shard = [] ∧
      shard ∈ entry.config.installShards ∧ shard ∉ entry.startedShards := by
  have perm : ((withResult state shard result).messages result.id shard).Perm _ :=
    messages_withResult result
  rw [← isEntry] at perm
  obtain quiet | ⟨installed, notStarted, sent, only⟩ := starting.flight shard
  · rw [quiet] at perm
    exact absurd perm.length_eq nofun
  · rw [only] at perm
    have same := singleton_perm.mp perm
    injection same with isMessage isRest
    injection isMessage with _ isAttempt
    exact ⟨isAttempt.symm, isRest.symm, installed, notStarted⟩

def counted (entry : ListenerEntry) (shard : Nat) : ListenerEntry :=
  { entry with
    startedShards := entry.startedShards ++ [shard]
    pendingStartShards := entry.pendingStartShards - 1 }

theorem Starting.counted (starting : Starting (withResult state shard result) entry attempt)
    (isEntry : entry.id = result.id) (ok : result.succeeded = true) :
    Starting state (counted entry shard) attempt := by
  obtain ⟨isAttempt, quiet, installed, notStarted⟩ := starting.of_withResult isEntry
  have isResult : ⟨some true, attempt⟩ ∈ (withResult state shard result).messages entry.id shard := by
    rw [isEntry, ← ok, ← isAttempt]
    exact (messages_withResult result).symm.subset mem_cons_self
  have others : ∀ own, own ≠ shard →
      (withResult state shard result).messages entry.id own = state.messages entry.id own :=
    fun own different => messages_withResult_of_ne (.inl different)
  have nodup : (entry.startedShards ++ [shard]).Nodup := by
    refine nodup_append.mpr ⟨starting.nodup, nodup_singleton shard, ?_⟩
    rintro own started _ isShard rfl
    exact notStarted (mem_singleton.mp isShard ▸ started)
  have subset : ∀ own ∈ entry.startedShards ++ [shard], own ∈ entry.config.installShards := by
    intro own started
    obtain started | isShard := mem_append.mp started
    · exact starting.subset own started
    · exact mem_singleton.mp isShard ▸ installed
  have room := (subperm_of_subset nodup subset).length_le
  have pending := starting.pending
  refine ⟨starting.running, starting.starting, nodup, subset, ?_, fun own => ?_, fun own started => ?_,
    fun own succeeded inside => starting.reported own succeeded (mem_messages_withResult inside),
    fun own isReport => ?_⟩
  · simp only [StartProtocol.counted, length_append, length_singleton] at room ⊢
    omega
  · by_cases same : own = shard
    · exact .inl (same ▸ quiet)
    · obtain quiet | ⟨installed, notStarted, sent⟩ := starting.flight own
      · exact .inl ((others own same).symm.trans quiet)
      · rw [others own same] at sent
        refine .inr ⟨installed, fun started => ?_, sent⟩
        obtain started | isShard := mem_append.mp started
        · exact notStarted started
        · exact same (mem_singleton.mp isShard)
  · obtain started | isShard := mem_append.mp started
    · exact starting.reportedOk own started
    · exact mem_singleton.mp isShard ▸ starting.reported shard true isResult
  · have inside := starting.errors own isReport
    by_cases same : own = shard
    · -- the shard has sent one message, and it is not an error
      subst same
      obtain none | ⟨_, _, sent, only⟩ := starting.flight own
      · exact absurd isResult (none ▸ not_mem_nil)
      · rw [only] at inside isResult
        have same := (mem_singleton.mp inside).trans (mem_singleton.mp isResult).symm
        exact absurd same nofun
    · exact others own same ▸ inside

theorem Starting.activated (starting : Starting state entry attempt)
    (finished : entry.pendingStartShards = 0) : Activated state entry attempt := by
  have pending := starting.pending
  have all : entry.config.installShards ⊆ entry.startedShards :=
    ((subperm_of_subset starting.nodup starting.subset).perm_of_length_le (by omega)).symm.subset
  have quiet : ∀ shard, state.messages entry.id shard = [] := by
    intro shard
    obtain quiet | ⟨installed, notStarted, _⟩ := starting.flight shard
    · exact quiet
    · exact absurd (all installed) notStarted
  refine ⟨quiet, fun shard installed => starting.reportedOk shard (all installed),
    fun shard isReport => ?_⟩
  have inside := starting.errors shard isReport
  rw [quiet] at inside
  exact not_mem_nil inside

theorem inv_countStarted (inv : Inv config none (withResult state shard result))
    (present : state.entryAt result.id.slot = some entry) (isEntry : entry.id = result.id)
    (isStarting : entry.phase = .starting) (ok : result.succeeded = true) :
    Inv config none (state.countStarted config env entry shard) := by
  have isSlot : entry.id.slot = result.id.slot := congrArg (·.slot) isEntry
  have hole := inv.drop
  have before := inv.entries result.id.slot entry nofun present
  have base := before.toEntryBase.drop
  obtain ⟨attempt, isAttempt, starting⟩ := before.starting isStarting
  obtain ⟨-, -, -, notStarted⟩ := starting.of_withResult isEntry
  have counted := starting.counted isEntry ok
  rw [← isSlot] at hole present
  have failed : ∀ started, Inv config none (state.failStart config env entry started) :=
    inv_failStart hole present base
  unfold countStarted
  simp only [notStarted, not_false_eq_true, if_false, decide_true, Bool.true_and]
  split
  · exact failed _
  · split
    · refine hole.setEntry present ?_ rfl
      exact ⟨{ base with }, fun _ => ⟨attempt, isAttempt, counted⟩,
        fun isActive => absurd (isStarting.symm.trans isActive) nofun,
        fun isConfigured => absurd (isStarting.symm.trans isConfigured) nofun⟩
    next last =>
      split
      · exact failed _
      · rw [if_pos counted.running]
        have activated := counted.activated (Decidable.not_not.mp last)
        refine hole.setEntry present ?_ rfl
        exact ⟨{ base with }, nofun, fun _ => ⟨attempt, isAttempt, { activated with }⟩, nofun⟩

theorem inv_handleListenerStartResult (result : StartResult)
    (inv : Inv config none (withResult state shard result)) : Inv config none
      (state.handleListenerStartResult config env result.id shard result.succeeded) := by
  have hole := inv.drop
  have filled : (∀ entry, state.entryAt result.id.slot = some entry →
      entry.id ≠ result.id ∨ entry.phase ≠ .starting) → Inv config none state := by
    intro isUnexpected
    refine hole.fill fun entry present => ?_
    have before := inv.entries result.id.slot entry nofun present
    by_cases isEntry : entry.id = result.id
    · have notStarting := (isUnexpected entry present).resolve_left (not_not_intro isEntry)
      refine ⟨before.toEntryBase.drop, fun isStarting => absurd isStarting notStarting,
        fun isActive => ?_, before.stopped⟩
      -- no message is on its way to an active entry
      obtain ⟨attempt, isAttempt, active⟩ := before.active isActive
      have perm : ((withResult state shard result).messages result.id shard).Perm _ :=
        messages_withResult result
      rw [← isEntry, active.quiet shard] at perm
      exact absurd perm.length_eq nofun
    · exact before.keep ⟨fun _ => (messages_withResult_of_ne (.inr (Ne.symm isEntry))).symm,
        fun _ => id, fun _ inside _ => inside, Nat.le_refl _, rfl⟩
  have unexpected : Inv config none state → Inv config none (if result.succeeded then
      state.scheduleRemoveListenerFromShard config env result.id .stopAcceptOnly shard
      else state) := by
    intro filled
    split
    · exact filled.tasks (keepsStarts_scheduleRemove _) (onlyTasks_scheduleRemove _)
    · exact filled
  have vacant : state.entryAt result.id.slot = none → Inv config none state := fun isVacant =>
    filled fun entry present => absurd (isVacant.symm.trans present) nofun
  unfold handleListenerStartResult
  dsimp only
  split
  · next outside => exact vacant (entryAt_of_le outside)
  cases present : state.entryAt result.id.slot with
  | none => exact unexpected (vacant present)
  | some entry =>
    dsimp only
    split
    next isUnexpected =>
      refine unexpected (filled fun own isOwn => ?_)
      cases present.symm.trans isOwn
      simpa using isUnexpected
    next isExpected =>
      obtain ⟨isEntry, isStarting⟩ : entry.id = result.id ∧ entry.phase = .starting := by
        simpa using isExpected
      split
      · next ok => exact inv_countStarted inv present isEntry isStarting ok
      · have isSlot : entry.id.slot = result.id.slot := congrArg (·.slot) isEntry
        have base := (inv.entries result.id.slot entry nofun present).toEntryBase.drop
        rw [← isSlot] at hole present
        exact inv_failStart hole present base _

end StartProtocol

end AsyncFlow
