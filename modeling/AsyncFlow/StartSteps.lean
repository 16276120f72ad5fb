import AsyncFlow.StartReports

/-!
# Operations of the control thread and starts

Each operation of the control thread keeps what is known of starts.  A start of a
listener may begin when no message about the listener is on its way.
-/

namespace AsyncFlow

open List

namespace StartProtocol

open ServerState

variable {config : ServerConfig} {env : ControlEnv} {state middle after : ServerState}
  {id : ListenerId} {entry : ListenerEntry} {slot shard attempt : Nat}

structure Elsewhere (slot : Nat) (state after : ServerState) : Prop where
  entries : ∀ own, own ≠ slot → after.entryAt own = state.entryAt own
  messages : ∀ id shard, id.slot ≠ slot → after.messages id shard = state.messages id shard

theorem Elsewhere.refl (slot : Nat) (state : ServerState) : Elsewhere slot state state :=
  ⟨fun _ _ => rfl, fun _ _ _ => rfl⟩

theorem Elsewhere.trans (first : Elsewhere slot state middle)
    (second : Elsewhere slot middle after) : Elsewhere slot state after :=
  ⟨fun own other => (second.entries own other).trans (first.entries own other),
    fun id shard other => (second.messages id shard other).trans (first.messages id shard other)⟩

theorem elsewhere_setEntry (present : state.entryAt slot = some entry) (changed : ListenerEntry) :
    Elsewhere slot state (state.setEntry slot changed) := by
  refine ⟨fun own other => ?_, fun _ _ _ => rfl⟩
  rw [entryAt_setEntry (lt_of_entryAt present), if_neg other]

theorem elsewhere_tasks (keeps : KeepsStarts state after) (only : OnlyTasks state after) :
    Elsewhere slot state after := by
  refine ⟨fun own _ => ?_, fun id shard _ => keeps.messages id shard⟩
  obtain ⟨_, rfl⟩ := only
  rfl

theorem elsewhere_failStart (present : state.entryAt entry.id.slot = some entry)
    (started : List Nat) :
    Elsewhere entry.id.slot state (state.failStart config env entry started) :=
  (elsewhere_setEntry present _).trans
    (elsewhere_tasks (keepsStarts_scheduleRemoves _ _) (onlyTasks_scheduleRemoves _ _))

theorem elsewhere_scheduleAdd (openListener : Bool) (targets : List Nat) (attempt : Nat) :
    Elsewhere id.slot state
      (state.schedule shard (.addListener id openListener targets attempt)) := by
  refine ⟨fun _ _ => rfl, fun own _ other => messages_schedule_other (if_neg ?_)⟩
  exact fun same => other (congrArg (·.slot) same.symm)

theorem handle_refused (inv : Inv config none state) (id : ListenerId) (shard : Nat) :
    Inv config none (state.handleListenerStartResult config env id shard false) ∧
      Elsewhere id.slot state (state.handleListenerStartResult config env id shard false) := by
  have unexpected := And.intro inv (Elsewhere.refl id.slot state)
  unfold handleListenerStartResult
  dsimp only
  split
  · exact unexpected
  cases present : state.entryAt id.slot with
  | none => exact unexpected
  | some entry =>
    dsimp only
    split
    · exact unexpected
    · have isSlot := inv.slots id.slot entry present
      have base := (inv.entries id.slot entry nofun present).toEntryBase
      rw [← isSlot] at present ⊢
      exact ⟨inv_failStart (inv.hole _) present base _, elsewhere_failStart present _⟩

structure Scheduled (state after : ServerState) (id : ListenerId) (shard attempt : Nat) : Prop where
  others : ∀ own other, other ≠ shard ∨ own ≠ id →
    after.messages own other = state.messages own other
  only : after.messages id shard = [⟨none, attempt⟩]

theorem scheduled_add (quiet : state.messages id shard = []) (openListener : Bool)
    (targets : List Nat) (attempt : Nat) :
    Scheduled state (state.schedule shard (.addListener id openListener targets attempt)) id shard
      attempt := by
  refine ⟨fun own other isOther => ?_, ?_⟩
  · by_cases same : own = id
    · have different := isOther.resolve_right (not_not_intro same)
      simp [messages, schedule, different]
    · exact messages_schedule_other (if_neg (Ne.symm same))
  · have perm : ((state.schedule shard
        (.addListener id openListener targets attempt)).messages id shard).Perm _ :=
      messages_schedule_add openListener targets attempt
    rw [quiet] at perm
    exact perm_singleton.mp perm

theorem Starting.scheduled (starting : Starting state entry attempt)
    (scheduled : Scheduled state after entry.id shard attempt)
    (quiet : state.messages entry.id shard = [])
    (installed : shard ∈ entry.config.installShards) (notStarted : shard ∉ entry.startedShards)
    (reports : after.reports = state.reports) (running : after.running = state.running) :
    Starting after entry attempt := by
  have others : ∀ own, own ≠ shard → after.messages entry.id own = state.messages entry.id own :=
    fun own different => scheduled.others entry.id own (.inl different)
  refine { starting with
    running := running.trans starting.running
    flight := fun own => ?_
    reportedOk := reports ▸ starting.reportedOk
    reported := fun own succeeded inside => ?_
    errors := fun own isReport => ?_ }
  · by_cases same : own = shard
    · exact .inr ⟨same ▸ installed, same ▸ notStarted, none, same ▸ scheduled.only⟩
    · rw [others own same]
      exact starting.flight own
  · by_cases same : own = shard
    · subst same
      rw [scheduled.only] at inside
      exact absurd (mem_singleton.mp inside) nofun
    · rw [others own same] at inside
      exact reports ▸ starting.reported own succeeded inside
  · have inside := starting.errors own (reports ▸ isReport)
    by_cases same : own = shard
    · subst same
      exact absurd inside (quiet ▸ not_mem_nil)
    · rwa [others own same]

theorem inv_scheduleAdd (inv : Inv config none state) (present : state.entryAt slot = some entry)
    (isStarting : entry.phase = .starting) (isAttempt : entry.attempt = some attempt)
    (installed : shard ∈ entry.config.installShards) (notStarted : shard ∉ entry.startedShards)
    (quiet : state.messages entry.id shard = []) (openListener : Bool) (targets : List Nat) :
    Inv config none (state.schedule shard (.addListener entry.id openListener targets attempt)) := by
  have before := inv.entries slot entry nofun present
  have scheduled := scheduled_add quiet openListener targets attempt
  have bound := (before.own attempt isAttempt).1
  refine ⟨⟨inv.free.nodup, inv.free.vacant⟩, inv.slots, fun own other _ isOther => ?_,
    fun id own message inside => ?_, inv.reports, fun id own beyond => ?_⟩
  · by_cases same : other.id = entry.id
    · have sameSlot : own = slot := by
        rw [← inv.slots own other isOther, same, inv.slots slot entry present]
      subst sameSlot
      cases present.symm.trans isOther
      refine ⟨⟨before.nodup, before.inside, fun number isNumber => ?_⟩, fun _ => ?_,
        fun isActive => absurd (isStarting.symm.trans isActive) nofun, before.stopped⟩
      · cases isAttempt.symm.trans isNumber
        refine ⟨bound, fun own message inside => ?_⟩
        by_cases same : own = shard
        · subst same
          rw [scheduled.only] at inside
          rw [mem_singleton.mp inside]
        · rw [scheduled.others _ own (.inl same)] at inside
          exact (before.own attempt isAttempt).2 own message inside
      · obtain ⟨number, isNumber, starting⟩ := before.starting isStarting
        cases isAttempt.symm.trans isNumber
        exact ⟨attempt, isAttempt, starting.scheduled scheduled quiet installed notStarted rfl rfl⟩
    · exact (inv.entries own other nofun isOther).keep
        ⟨fun shard => scheduled.others _ shard (.inr same), fun _ => id,
          fun _ inside _ => inside, Nat.le_refl _, rfl⟩
  · by_cases isOwn : own = shard ∧ id = entry.id
    · obtain ⟨rfl, rfl⟩ := isOwn
      rw [scheduled.only] at inside
      rw [mem_singleton.mp inside]
      exact bound
    · rw [scheduled.others id own (Decidable.not_and_iff_or_not.mp isOwn)] at inside
      exact inv.bounded id own message inside
  · have below := before.inside shard installed
    rw [scheduled.others id own (.inl (by omega))]
    exact inv.outside id own beyond

structure Adding (config : ServerConfig) (state : ServerState) (entry : ListenerEntry)
    (attempt : Nat) (shards : List Nat) : Prop where
  inv : Inv config none state
  present : state.entryAt entry.id.slot = some entry
  isStarting : entry.phase = .starting
  isAttempt : entry.attempt = some attempt
  noneStarted : entry.startedShards = []
  nodup : shards.Nodup
  installed : ∀ shard ∈ shards, shard ∈ entry.config.installShards
  quiet : ∀ shard ∈ shards, state.messages entry.id shard = []

theorem Adding.next {shards : List Nat}
    (adding : Adding config state entry attempt (shard :: shards)) (openListener : Bool)
    (targets : List Nat) :
    Adding config (state.schedule shard (.addListener entry.id openListener targets attempt))
      entry attempt shards := by
  obtain ⟨notIn, nodup⟩ := nodup_cons.mp adding.nodup
  have quiet := adding.quiet shard mem_cons_self
  have installed := adding.installed shard mem_cons_self
  have notStarted : shard ∉ entry.startedShards := adding.noneStarted ▸ not_mem_nil
  refine ⟨inv_scheduleAdd adding.inv adding.present adding.isStarting adding.isAttempt installed
    notStarted quiet openListener targets, adding.present, adding.isStarting, adding.isAttempt,
    adding.noneStarted, nodup,
    fun own inside => adding.installed own (mem_cons_of_mem _ inside), fun own inside => ?_⟩
  have different : own ≠ shard := fun same => notIn (same ▸ inside)
  rw [(scheduled_add quiet openListener targets attempt).others _ own (.inl different)]
  exact adding.quiet own (mem_cons_of_mem _ inside)

theorem Adding.scheduleAdds {shards : List Nat}
    (adding : Adding config state entry attempt shards) (old : ListenerEntry) (sameId : old.id = entry.id) :
    Inv config none (scheduleAdds config env old attempt shards state).2 ∧
      Elsewhere old.id.slot state (scheduleAdds config env old attempt shards state).2 := by
  induction shards generalizing state with
  | nil => exact ⟨adding.inv, .refl _ _⟩
  | cons shard shards ih =>
    unfold ServerState.scheduleAdds
    split
    · rw [sameId] at ih ⊢
      obtain ⟨inv, elsewhere⟩ := ih (adding.next _ _)
      exact ⟨inv, (elsewhere_scheduleAdd _ _ _).trans elsewhere⟩
    · exact handle_refused adding.inv old.id shard

section

variable (inv : Inv config none state)

include inv

theorem adding_beginAttempt
    (present : state.entryAt entry.id.slot = some entry) (running : state.running = true)
    (quiet : ∀ shard, state.messages entry.id shard = []) :
    Adding config (state.beginAttempt entry) (begun entry state.attempts) state.attempts
      entry.config.installShards := by
  have before := inv.entries _ entry nofun present
  -- the number of the start is new
  have counted : Inv config none { state with attempts := state.attempts + 1 } :=
    { free := ⟨inv.free.nodup, inv.free.vacant⟩
      slots := inv.slots
      entries := fun slot other _ isOther => (inv.entries slot other nofun isOther).keep
        ⟨fun _ => rfl, fun _ => id, fun _ inside _ => inside, Nat.le_succ _, rfl⟩
      bounded := fun id shard message inside => Nat.lt_succ_of_lt (inv.bounded id shard message inside)
      reports := fun report inside => Nat.lt_succ_of_lt (inv.reports report inside)
      outside := inv.outside }
  have starting : Starting { state with attempts := state.attempts + 1 }
      (begun entry state.attempts) state.attempts :=
    { running := running
      starting := rfl
      nodup := nodup_nil
      subset := fun _ inside => absurd inside not_mem_nil
      pending := rfl
      flight := fun shard => .inl (quiet shard)
      reportedOk := fun _ inside => absurd inside not_mem_nil
      reported := fun shard _ inside => absurd inside (quiet shard ▸ not_mem_nil)
      errors := fun _ isReport => absurd (inv.reports _ isReport) (Nat.lt_irrefl _) }
  refine ⟨(counted.hole entry.id.slot).setEntry present ⟨⟨before.nodup, before.inside,
      fun attempt isAttempt => ?_⟩, fun _ => ⟨_, rfl, starting⟩, nofun, nofun⟩ rfl, ?_, rfl, rfl, rfl,
    before.nodup, fun _ => id, fun shard _ => quiet shard⟩
  · cases isAttempt
    exact ⟨Nat.lt_succ_self _, fun shard message inside => absurd inside
      (quiet shard ▸ not_mem_nil)⟩
  · exact (entryAt_setEntry (lt_of_entryAt present) _ _).trans (if_pos rfl)

theorem startListenerSlot_spec (quiet : ∀ entry, state.entryAt slot = some entry →
      ∀ shard, state.messages entry.id shard = []) :
    Inv config none (startListenerSlot config env state slot).2 ∧
      Elsewhere slot state (startListenerSlot config env state slot).2 := by
  have unchanged := And.intro inv (Elsewhere.refl slot state)
  cases present : state.entryAt slot with
  | none =>
    simp only [startListenerSlot, present]
    exact unchanged
  | some entry =>
    have isSlot := inv.slots slot entry present
    subst isSlot
    simp only [startListenerSlot, present]
    split
    · exact unchanged
    split
    · exact unchanged
    next running =>
      split
      · have failed := (inv.entries _ entry nofun present).toEntryBase.settle .failed [] nofun
          nofun nofun
        exact ⟨(inv.hole _).setEntry present failed rfl, elsewhere_setEntry present _⟩
      · have isRunning : state.running = true := by simpa using running
        have adding := adding_beginAttempt inv present isRunning (quiet entry present)
        obtain ⟨after, elsewhere⟩ := adding.scheduleAdds entry rfl
        have begins : Elsewhere entry.id.slot state (state.beginAttempt entry) :=
          have changed := elsewhere_setEntry present (begun entry state.attempts)
          ⟨changed.entries, changed.messages⟩
        exact ⟨after, begins.trans elsewhere⟩

theorem inv_startSlots {slots : List Nat} (nodup : slots.Nodup)
    (quiet : ∀ slot ∈ slots, ∀ entry, state.entryAt slot = some entry →
      ∀ shard, state.messages entry.id shard = []) :
    Inv config none (startSlots config env slots state).2 := by
  induction slots generalizing state with
  | nil => exact inv
  | cons slot slots ih =>
    obtain ⟨notIn, nodup⟩ := nodup_cons.mp nodup
    obtain ⟨started, elsewhere⟩ : Inv config none (startListenerSlot config env state slot).2 ∧ _ :=
      startListenerSlot_spec inv (quiet slot mem_cons_self)
    suffices rest : ∀ own ∈ slots, ∀ entry,
        (startListenerSlot config env state slot).2.entryAt own = some entry →
          ∀ shard, (startListenerSlot config env state slot).2.messages entry.id shard = [] from
      ih started nodup rest
    intro own inside entry present shard
    have different : own ≠ slot := fun same => notIn (same ▸ inside)
    rw [elsewhere.entries own different] at present
    have isOwn := inv.slots own entry present
    rw [elsewhere.messages _ _ (isOwn ▸ different)]
    exact quiet own (mem_cons_of_mem _ inside) entry present shard

/-! ### Other operations -/

theorem inv_releaseListenerSlot (slot : Nat) (freeFails : Bool) :
    Inv config none (state.releaseListenerSlot slot freeFails) := by
  have keeps : KeepsStarts state (state.releaseListenerSlot slot freeFails) :=
    keepsStarts_releaseListenerSlot freeFails
  have kept : ∀ own entry, (state.releaseListenerSlot slot freeFails).entryAt own = some entry →
      state.entryAt own = some entry := by
    intro own entry present
    rw [entryAt_releaseListenerSlot] at present
    split at present
    · cases present
    · exact present
  refine ⟨inv.free.release slot freeFails,
    fun own entry present => inv.slots own entry (kept own entry present),
    fun own entry _ present => (inv.entries own entry nofun (kept own entry present)).keep
      (.of_keepsStarts keeps), ?_, ?_, ?_⟩
  · simpa only [keeps.messages, keeps.attempts] using inv.bounded
  · simpa only [keeps.reports, keeps.attempts] using inv.reports
  · simpa only [keeps.messages] using inv.outside

theorem inv_storeEntry {listener : ListenerConfig}
    (valid : listener.validate config = true) : Inv config none (state.storeEntry listener).2 := by
  have keeps : KeepsStarts state (state.storeEntry listener).2 := keepsStarts_storeEntry listener
  have threads := ListenerConfig.threads_of_validate valid
  refine ⟨inv.free.store listener, fun own entry present => ?_, fun own entry _ present => ?_,
    ?_, ?_, ?_⟩
  · rw [storeEntry_entryAt] at present
    split at present
    next same =>
      cases present
      exact same.symm
    · exact inv.slots own entry present
  · rw [storeEntry_entryAt] at present
    split at present
    · cases present
      exact ⟨⟨threads.1, threads.2, nofun⟩, nofun, nofun, nofun⟩
    · exact (inv.entries own entry nofun present).keep (.of_keepsStarts keeps)
  · simpa only [keeps.messages, keeps.attempts] using inv.bounded
  · simpa only [keeps.reports, keeps.attempts] using inv.reports
  · simpa only [keeps.messages] using inv.outside

end

theorem keepsStarts_scheduleStops (shards : List Nat) :
    KeepsStarts state (scheduleStops env shards state) ∧
      OnlyTasks state (scheduleStops env shards state) := by
  induction shards generalizing state with
  | nil => exact ⟨.refl state, _, rfl⟩
  | cons shard shards ih =>
    unfold scheduleStops
    rw [foldl_cons]
    have first : KeepsStarts state
        (if env.accepts 0 shard then state.schedule shard .stop else state) ∧
        OnlyTasks state (if env.accepts 0 shard then state.schedule shard .stop else state) := by
      split
      · exact ⟨⟨fun _ _ => messages_schedule_other rfl, rfl, rfl, rfl⟩, _, rfl⟩
      · exact ⟨.refl state, _, rfl⟩
    exact ⟨first.1.trans ih.1, first.2.trans ih.2⟩

theorem inv_halted (inv : Inv config none state) : Inv config none (state.halted env) := by
  refine { inv with
    free := inv.free.halted
    slots := fun slot entry present => ?_
    entries := fun slot entry _ present => ?_ }
  · rw [entryAt_halted] at present
    obtain ⟨old, isOld, rfl⟩ := Option.map_eq_some_iff.mp present
    exact inv.slots slot old isOld
  · rw [entryAt_halted] at present
    obtain ⟨old, isOld, rfl⟩ := Option.map_eq_some_iff.mp present
    have before := inv.entries slot old nofun isOld
    exact ⟨{ before with }, nofun, nofun, fun _ _ => rfl⟩

theorem inv_stop (inv : Inv config none state) : Inv config none (stop config env state).2 := by
  unfold stop
  split
  · exact inv
  split
  · exact inv
  obtain ⟨keeps, only⟩ : KeepsStarts (state.halted env) _ ∧ _ :=
    keepsStarts_scheduleStops (List.range config.threadCount)
  exact (inv_halted inv).tasks keeps only

theorem inv_removeListener (inv : Inv config none state) (id : ListenerId)
    (policy : RemoveListenerPolicy) :
    Inv config none (removeListener config env state id policy).2 := by
  unfold removeListener
  split
  · exact inv
  split
  · exact inv
  · exact (inv_releaseListenerSlot inv _ _).tasks (keepsStarts_scheduleRemoves _ _)
      (onlyTasks_scheduleRemoves _ _)

end StartProtocol

end AsyncFlow
