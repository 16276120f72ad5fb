import AsyncFlow.IoWaitConsistency
import AsyncFlow.TcpConnectTask

/-!
# The waits of a connecting task among the others

Registrations that refer to the connecting task are added by the task alone, and
when the executor removes one it has written its result.
-/

namespace AsyncFlow

open Function

namespace TcpConnect

open IoWaits

variable {before after : IoWaitsState} {registration : IoWaitRegistration} {memory : WaitMemory}
  {outcome : IoWaitsState × Bool} {available : Bool} {id : Nat} {result : ResultId}

/-- A registration refers to the task or to one of its results. -/
def Mine (registration : IoWaitRegistration) : Prop :=
  registration.task = connectTask ∨ registration.result = connectState ∨
    registration.result = deadlineWait

def Referred (waits : IoWaitsState) (id : Nat) : Prop :=
  InTable waits.ioWaits id ∧ Mine (waits.registrations id)

def ownResult (result : ResultId) : Prop :=
  result = connectState ∨ result = deadlineWait

theorem available_of_waitError {fd : Int} {events : IoEvents}
    (valid : before.waitError available fd events = none) : available = true := by
  cases available with
  | true => rfl
  | false =>
    unfold IoWaitsState.waitError at valid
    split at valid
    · cases valid
    · split at valid <;> cases valid

theorem registers_frame (inv : Inv before) (rest : before.polling = none)
    (registers : Registers before available registration memory outcome) :
    (∀ id, InTable before.ioWaits id → outcome.1.registrations id = before.registrations id) ∧
    (∀ result, result ≠ registration.result → outcome.1.results result = before.results result) ∧
    (outcome.2 = false → outcome.1.ioWaits = before.ioWaits) ∧
    (outcome.2 = true → available = true ∧
      outcome.1.registrations before.ledger.created = registration ∧
      outcome.1.results registration.result = ⟨registration.fd, .none, none⟩ ∧
      ∀ id, InTable outcome.1.ioWaits id ↔
        InTable before.ioWaits id ∨ id = before.ledger.created) := by
  have fresh : ∀ id, InTable before.ioWaits id → id ≠ before.ledger.created := by
    rintro _ inside rfl
    exact inv.sound.balanced.not_waiting_created inside
  refine ⟨fun id inside => ?_, fun result different => ?_,
    ioWaits_of_not_accepted inv rest registers, fun accepted => ?_⟩
  · cases registers with
    | refused => rfl
    | noMemory | accepted | rolledBack => exact update_of_ne (fresh id inside) _ _
  · cases registers with
    | refused | noMemory | accepted | rolledBack => exact update_of_ne different _ _
  · cases registers with
    | refused | noMemory | rolledBack => cases accepted
    | accepted valid found =>
      exact ⟨available_of_waitError valid, update_self .., update_self ..,
        fun id => inTable_enter valid found⟩

/-- What others do to the registrations that refer to the task. -/
structure ByOthers (before after : IoWaitsState) : Prop where
  referred : ∀ id, Referred after id →
    Referred before id ∧ after.registrations id = before.registrations id
  finished : ∀ id, Referred before id → ¬ Referred after id →
    (after.results (before.registrations id).result).events ≠ .none
  results : ∀ result, ownResult result → after.results result = before.results result ∨
    (after.results result).error = none ∧
      ∃ id, Referred before id ∧ ¬ Referred after id ∧ (before.registrations id).result = result

namespace ByOthers

theorem of_same (table : ∀ id, InTable after.ioWaits id ↔ InTable before.ioWaits id)
    (registrations : ∀ id, InTable before.ioWaits id →
      after.registrations id = before.registrations id)
    (results : ∀ result, ownResult result → after.results result = before.results result) :
    ByOthers before after where
  referred := fun id referred =>
    have inside := (table id).mp referred.1
    ⟨⟨inside, registrations id inside ▸ referred.2⟩, registrations id inside⟩
  finished := fun id referred gone =>
    absurd ⟨(table id).mpr referred.1, (registrations id referred.1).symm ▸ referred.2⟩ gone
  results := fun result own => .inl (results result own)

theorem register (inv : Inv before) (rest : before.polling = none)
    (registers : Registers before available registration memory outcome)
    (notMine : ¬ Mine registration) : ByOthers before outcome.1 := by
  obtain ⟨registrations, results, refused, accepted⟩ := registers_frame inv rest registers
  have own : ∀ result, ownResult result → outcome.1.results result = before.results result := by
    intro result isOwn
    refine results result ?_
    rintro rfl
    exact notMine (.inr isOwn)
  cases answer : outcome.2 with
  | false =>
    exact of_same (fun id => by rw [refused answer]) registrations own
  | true =>
    obtain ⟨-, created, -, table⟩ := accepted answer
    refine ⟨fun id referred => ?_, fun id referred gone => ?_, fun result isOwn =>
      .inl (own result isOwn)⟩
    · rcases (table id).mp referred.1 with inside | rfl
      · exact ⟨⟨inside, registrations id inside ▸ referred.2⟩, registrations id inside⟩
      · exact absurd (created ▸ referred.2) notMine
    · exact absurd ⟨(table id).mpr (.inl referred.1),
        (registrations id referred.1).symm ▸ referred.2⟩ gone

theorem cancel (inv : Inv before)
    (cancels : Cancels before result outcome) (notOwn : ¬ ownResult result)
    (owned : ∀ id, Referred before id → ownResult (before.registrations id).result) :
    ByOthers before outcome.1 := by
  cases cancels with
  | refused =>
    refine of_same (fun _ => Iff.rfl) (fun _ _ => rfl) fun other isOwn =>
      update_of_ne ?_ _ _
    rintro rfl
    exact notOwn isOwn
  | @cancelled fd entry removed polling epoll cancelling ledger own present found =>
    have table : ∀ id, InTable (update before.ioWaits fd (entry.remove removed).kept) id ↔
        InTable before.ioWaits id ∧ id ≠ removed :=
      inTable_remove_of_sound inv.sound _ present (IoWaitEntry.contains_of_find found)
        fun id => IoWaitEntry.exists_mem_kept_iff
    have stays : ∀ id, Referred before id → id ≠ removed := by
      rintro _ referred rfl
      exact notOwn (IoWaitEntry.result_of_find found ▸ owned _ referred)
    refine ⟨fun id referred => ?_, fun id referred gone => ?_, fun other isOwn => .inl ?_⟩
    · exact ⟨⟨((table id).mp referred.1).1, referred.2⟩, rfl⟩
    · exact absurd ⟨(table id).mpr ⟨referred.1, stays id referred⟩, referred.2⟩ gone
    · refine update_of_ne ?_ _ _
      rintro rfl
      exact notOwn isOwn

theorem complete {polled : Int → Prop} {entry : IoWaitEntry} (frame : PollFrame)
    (sound : Sound before polled) (present : before.ioWaits frame.fd = some entry)
    (contains : entry.contains frame.registration = true) (ready : frame.readyEvents ≠ .none) :
    ByOthers before (before.complete frame) := by
  rw [complete_eq present]
  have table : ∀ id, InTable (update before.ioWaits frame.fd
      (some (entry.remove frame.registration))) id ↔
        InTable before.ioWaits id ∧ id ≠ frame.registration :=
    inTable_remove_of_sound sound _ present contains fun id => by simp
  refine ⟨fun id referred => ⟨⟨((table id).mp referred.1).1, referred.2⟩, rfl⟩,
    fun id referred gone => ?_, fun result isOwn => ?_⟩
  · obtain rfl : id = frame.registration := by
      by_contra different
      exact gone ⟨(table id).mpr ⟨referred.1, different⟩, referred.2⟩
    dsimp only
    rw [update_self]
    exact ready
  · by_cases same : result = (before.registrations frame.registration).result
    · subst same
      refine .inr ⟨?_, frame.registration,
        ⟨inTable_of_contains present contains, .inr isOwn⟩, ?_, rfl⟩
      · dsimp only
        rw [update_self]
      · exact fun referred => ((table _).mp referred.1).2 rfl
    · exact .inl (update_of_ne same _ _)

theorem channel (calls : ChannelCalls before after) :
    ByOthers before after ∧ after.polling = before.polling := by
  cases calls with
  | refused | touched =>
    exact ⟨of_same (fun _ => Iff.rfl) (fun _ _ => rfl) fun _ _ => rfl, rfl⟩

end ByOthers

def FramesReady (waits : IoWaitsState) : Prop :=
  ∀ frame ∈ waits.polling, frame.readyEvents ≠ .none

theorem framesReady_of_rest (rest : before.polling = none) : FramesReady before := by
  simp [FramesReady, rest]

theorem ne_none_of_mem_collectReady {readyEvents : IoEvents} {entry : IoWaitEntry}
    (inside : id ∈ before.collectReady readyEvents entry) : readyEvents ≠ .none := by
  rintro rfl
  have never : ∀ registration : IoWaitRegistration, registration.ready .none = false := by
    intro registration
    simp [IoWaitRegistration.ready, IoEvents.none]
  simp [IoWaitsState.collectReady, never] at inside

theorem polling_of_registers (registers : Registers before available registration memory outcome)
    (rest : before.polling = none) : outcome.1.polling = none := by
  cases registers with
  | refused | noMemory => exact rest
  | accepted valid found steady => exact (steady (.inl rest)).trans rest
  | rolledBack value valid found removed steady =>
    exact (steady (.inl rest) (by simp [rest])).trans rest

theorem polling_of_cancels (cancels : Cancels before result outcome)
    (rest : before.polling = none) : outcome.1.polling = none := by
  cases cancels with
  | refused => exact rest
  | cancelled own present found steady => exact (steady (by simp [rest])).trans rest

theorem byOthers_of_handle (inv : Inv before) (handles : Handles before after) :
    ByOthers before after ∧ (before.polling = none → FramesReady after) := by
  cases handles with
  | other | stale | notReady =>
    exact ⟨.of_same (fun _ => Iff.rfl) (fun _ _ => rfl) fun _ _ => rfl, framesReady_of_rest⟩
  | @completes event batch fd entry registration completed taken isWait present ready =>
    have inside : registration ∈ before.collectReady (ioEventsFromNative event.events) entry :=
      ready ▸ List.mem_cons_self
    have isSome := ne_none_of_mem_collectReady inside
    have sound : Sound { before with batch := batch }
        fun fd => ∃ frame ∈ before.polling, frame.fd = fd :=
      ⟨inv.sound.entries, inv.sound.balanced⟩
    refine ⟨?_, fun _ => ?_⟩
    · have completes := ByOthers.complete
        ⟨fd, ioEventsFromNative event.events, true, registration, completed⟩
        sound present (contains_of_mem_collectReady inside) isSome
      exact { completes with }
    · rintro _ ⟨⟩
      exact isSome

theorem byOthers_of_enqueued (inv : Inv before) (frames : FramesReady before)
    (enqueues : Enqueues before after) : ByOthers before after ∧ FramesReady after := by
  cases enqueues with
  | cancelled => exact ⟨.of_same (fun _ => Iff.rfl) (fun _ _ => rfl) fun _ _ => rfl, frames⟩
  | @completes frame registration completed calls polls rest =>
    obtain ⟨entry, present, collected⟩ := (inv.frames frame polls).entry
    have completes := ByOthers.complete
      { frame with registration := registration, completed := completed }
      (inv.resume calls polls) present (collected registration (rest ▸ List.mem_cons_self))
      (frames frame polls)
    refine ⟨{ completes with }, ?_⟩
    rintro _ ⟨⟩
    exact frames frame polls
  | @settles frame entry calls polls present =>
    obtain ⟨polling, epoll, erases, steady, -⟩ := eraseOrUpdate_spec
      { before.destroy frame.registration with polling := none } frame.fd entry
    obtain rfl := steady (by simp)
    rw [erases]
    refine ⟨.of_same (fun id => ?_) (fun _ _ => rfl) fun _ _ => rfl, framesReady_of_rest rfl⟩
    dsimp only [IoWaitsState.destroy]
    rw [inTable_update_iff, IoWaitEntry.exists_mem_kept_iff, inTable_iff frame.fd, present]
    simp
  | @lost frame calls polls absent =>
    obtain ⟨entry, present, -⟩ := (inv.frames frame polls).entry
    cases absent.symm.trans present

theorem byOthers_of_step {state : TcpConnectState} {action : IoWaits.Action}
    (inv : Inv state.waits) (frames : FramesReady state.waits)
    (owned : ∀ id, Referred state.waits id → ownResult (state.waits.registrations id).result)
    (others : byOthers state action = true) (permitted : undisturbed state.waits action)
    (steps : IoWaits.step available state.waits action = some after) :
    ByOthers state.waits after ∧ FramesReady after := by
  have ready : ∀ fails, Inv (withFails state.waits fails) := fun fails =>
    ⟨{ inv.sound with }, inv.frames⟩
  have channel : ∀ fails after, ChannelCalls (withFails state.waits fails) after →
      ByOthers state.waits after ∧ FramesReady after := by
    intro fails after calls
    obtain ⟨same, polling⟩ := ByOthers.channel calls
    exact ⟨{ same with }, by rw [FramesReady, polling]; exact frames⟩
  cases action with
  | registerWait registration memory fails =>
    cases steps
    have registers := registers_registerNativeIoWait (withFails state.waits fails) available
      registration memory
    have same := ByOthers.register (ready fails) permitted.1 registers (by
      simpa [byOthers, Mine] using others)
    exact ⟨{ same with }, framesReady_of_rest (polling_of_registers registers permitted.1)⟩
  | cancelWait result runningTask fails =>
    cases steps
    have cancels := cancels_cancelNativeIoWait (withFails state.waits fails) available result
      runningTask
    have same := ByOthers.cancel (ready fails) cancels (by
      simp only [byOthers, decide_eq_true_eq] at others
      simp [ownResult, others.1, others.2.1]) owned
    exact ⟨{ same with }, framesReady_of_rest (polling_of_cancels cancels permitted.1)⟩
  | writeResult result value =>
    cases steps
    refine ⟨.of_same (fun _ => Iff.rfl) (fun _ _ => rfl) fun other isOwn => ?_, frames⟩
    refine update_of_ne ?_ _ _
    rintro rfl
    simp only [byOthers, decide_eq_true_eq] at others
    exact isOwn.elim others.1 others.2
  | registerChannel id events fails =>
    cases steps
    exact channel fails _ (channelCalls_registerNetChannel _ _ _ _)
  | updateChannel id events fails =>
    cases steps
    exact channel fails _ (channelCalls_updateNetChannel _ _ _)
  | unregisterChannel id fails =>
    cases steps
    exact channel fails _ (channelCalls_unregisterNetChannel _ _)
  | closeFd fd =>
    cases steps
    exact ⟨.of_same (fun _ => Iff.rfl) (fun _ _ => rfl) fun _ _ => rfl, frames⟩
  | epollWait events =>
    obtain ⟨-, ends⟩ := Option.ite_none_right_eq_some.mp steps
    cases ends
    exact ⟨.of_same (fun _ => Iff.rfl) (fun _ _ => rfl) fun _ _ => rfl, frames⟩
  | handleEvent fails =>
    obtain ⟨rest, handles⟩ := Option.ite_none_right_eq_some.mp steps
    obtain ⟨same, framesAfter⟩ := byOthers_of_handle (ready fails) (handles_handleEvent handles)
    exact ⟨{ same with }, framesAfter rest.1⟩
  | enqueued fails =>
    obtain ⟨same, framesAfter⟩ := byOthers_of_enqueued (ready fails) frames
      (enqueues_enqueued steps)
    exact ⟨{ same with }, framesAfter⟩

end TcpConnect

end AsyncFlow
