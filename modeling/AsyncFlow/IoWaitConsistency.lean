import AsyncFlow.IoReentrancy

/-!
# Consistency of the table of IO waits

While the local queue has room for the tasks that are woken, calls on waits and
channels do not run in the middle of each other.  Then the table, the
registrations and the interests of the epoll instance agree after every call.
-/

namespace AsyncFlow

open Function Option

namespace IoWaits

variable {state after : IoWaitsState} {epoll epoll' : Epoll} {fd : Int} {entry : IoWaitEntry}
  {ioWaits : Int → Option IoWaitEntry} {excused excused' : Int → Prop}

/-- Nothing runs while a task is enqueued, and a descriptor that is closed is not
registered. -/
def undisturbed (state : IoWaitsState) (action : Action) : Prop :=
  match action with
  | .registerWait _ _ _ | .cancelWait _ _ _ | .writeResult _ _ | .registerChannel _ _ _
  | .updateChannel _ _ _ | .unregisterChannel _ _ => atRest state
  | .closeFd fd => atRest state ∧ state.ioWaits fd = none ∧ state.netChannels fd = none
  | .epollWait _ | .handleEvent _ | .enqueued _ => True

instance (state : IoWaitsState) (action : Action) : Decidable (undisturbed state action) :=
  match action with
  | .registerWait _ _ _ | .cancelWait _ _ _ | .writeResult _ _ | .registerChannel _ _ _
  | .updateChannel _ _ _ | .unregisterChannel _ _ => inferInstanceAs (Decidable (atRest state))
  | .closeFd _ => inferInstanceAs (Decidable (_ ∧ _))
  | .epollWait _ | .handleEvent _ | .enqueued _ => inferInstanceAs (Decidable True)

theorem reentrySafe_of_undisturbed {action : Action} (permitted : undisturbed state action) :
    reentrySafe state action := by
  cases action with
  | registerWait | cancelWait =>
    intro frame polls
    simp [permitted.1] at polls
  | _ => trivial

/-! ### Armed interests -/

def isArmedWait (interest : EpollInterest) : Bool :=
  interest.armed && match interest.token with
    | .wait _ => true
    | .wake | .channel _ => false

def armedWait (epoll : Epoll) (fd : Int) : Option EpollInterest :=
  (epoll.interests fd).filter isArmedWait

def wantedWait (ioWaits : Int → Option IoWaitEntry) (fd : Int) : Option EpollInterest :=
  (ioWaits fd).bind (·.interest fd)

/-- Unless the environment made calls fail, what is armed is what the slots ask
for, except for excused descriptors. -/
def Armed (epoll : Epoll) (ioWaits : Int → Option IoWaitEntry) (excused : Int → Prop) : Prop :=
  epoll.failures = 0 → ∀ fd, excused fd ∨ armedWait epoll fd = wantedWait ioWaits fd

/-- The one-shot event of the descriptor is in the batch, or being handled. -/
def reported (state : IoWaitsState) (fd : Int) : Prop :=
  (∃ event ∈ state.batch, event.token = .wait fd) ∨ ∃ frame ∈ state.polling, frame.fd = fd

theorem filter_interest : (entry.interest fd).filter isArmedWait = entry.interest fd := by
  unfold IoWaitEntry.interest
  split <;> simp [isArmedWait]

theorem kept_bind_interest : entry.kept.bind (·.interest fd) = entry.interest fd := by
  unfold IoWaitEntry.kept
  split
  · next empty => rw [IoWaitEntry.interest_eq_none_iff.mpr empty, bind_none]
  · rfl

namespace Armed

section

variable (armed : Armed epoll ioWaits excused)

include armed

theorem change {slot : Option IoWaitEntry}
    (changed : Epoll.Changed epoll epoll' fd (slot.bind (·.interest fd)))
    (others : ∀ key, key ≠ fd → excused key → excused' key) :
    Armed epoll' (update ioWaits fd slot) excused' := by
  intro noFailure key
  have same : epoll'.failures = epoll.failures := by have := changed.failures_le; omega
  by_cases own : key = fd
  · subst own
    refine .inr ?_
    unfold armedWait wantedWait
    rw [changed.isSet same, update_self]
    cases slot with
    | none => rfl
    | some entry => exact filter_interest
  · refine (armed (same ▸ noFailure) key).imp (others key own) fun before => ?_
    unfold armedWait wantedWait at before ⊢
    rw [changed.others key own, update_of_ne own, before]

theorem refresh (changed : Epoll.Changed epoll epoll' fd (wantedWait ioWaits fd))
    (others : ∀ key, key ≠ fd → excused key → excused' key) : Armed epoll' ioWaits excused' := by
  have := armed.change changed others
  rwa [update_eq_self] at this

theorem excuse (slot : Option IoWaitEntry)
    (touched : Epoll.Touched epoll epoll' fd) (own : excused' fd)
    (others : ∀ key, key ≠ fd → excused key → excused' key) :
    Armed epoll' (update ioWaits fd slot) excused' := by
  intro noFailure key
  by_cases same : key = fd
  · exact .inl (same ▸ own)
  · have := touched.failures_le
    refine (armed (by omega) key).imp (others key same) fun before => ?_
    unfold armedWait wantedWait at before ⊢
    rw [touched.others key same, update_of_ne same, before]

theorem touch (touched : Epoll.Touched epoll epoll' fd)
    (noSlots : ioWaits fd = none) (noNew : NoNewWait epoll epoll' fd) :
    Armed epoll' ioWaits excused := by
  intro noFailure key
  have same : epoll'.failures = epoll.failures := by have := touched.failures_le; omega
  refine (armed (same ▸ noFailure) key).imp_right fun before => ?_
  unfold armedWait wantedWait at before ⊢
  by_cases own : key = fd
  · subst own
    rcases noNew same with unchanged | channels
    · rw [unchanged, before]
    · rw [noSlots, bind_none, filter_eq_none_iff]
      intro interest present
      obtain ⟨channel, isChannel⟩ := channels interest present
      simp [isArmedWait, isChannel]
  · rw [touched.others key own, before]

theorem mono (more : ∀ fd, excused fd → excused' fd) : Armed epoll ioWaits excused' :=
  fun noFailure fd => (armed noFailure fd).imp_left (more fd)

end

end Armed

def ArmedState (state : IoWaitsState) : Prop :=
  Armed state.epoll state.ioWaits (reported state)

namespace ArmedState

variable {registration : IoWaitRegistration} {memory : WaitMemory} {result : ResultId}
  {outcome : IoWaitsState × Bool} {frame : PollFrame}

theorem register {available : Bool} (armed : ArmedState state) (rest : state.polling = none)
    (registers : Registers state available registration memory outcome) : ArmedState outcome.1 := by
  have safe : insertsSafely state registration.fd memory := .inl rest
  cases registers with
  | refused | noMemory => exact armed
  | accepted valid found steady changed =>
    obtain rfl := steady safe
    exact Armed.change armed changed fun key _ => id
  | rolledBack value valid found removed steady failed changed =>
    obtain rfl := steady safe (by simp [rest])
    refine Armed.change armed ?_ fun key _ => id
    rw [kept_bind_interest]
    exact changed

theorem cancel (armed : ArmedState state) (rest : state.polling = none)
    (cancels : Cancels state result outcome) : ArmedState outcome.1 := by
  cases cancels with
  | refused => exact armed
  | cancelled own present found steady changed ends =>
    obtain rfl := steady (by simp [rest])
    refine Armed.change armed ?_ fun key _ => id
    rw [kept_bind_interest]
    exact changed

theorem channel (armed : ArmedState state) (inv : Inv state) (calls : ChannelCalls state after) :
    ArmedState after := by
  cases calls with
  | refused => exact armed
  | @touched fd netChannels channels epoll noWait others touches noNew =>
    refine Armed.touch armed touches ?_ noNew
    rcases noWait with absent | isChannel
    · exact absent
    · cases present : state.ioWaits fd with
      | none => rfl
      | some entry => simp [(inv.sound.entries fd entry present).apart] at isChannel

theorem reported_of_tail {event : EpollEvent} {batch : List EpollEvent} {key : Int}
    (taken : state.batch = event :: batch) (different : event.token ≠ .wait key)
    (before : reported state key) : reported { state with batch := batch } key := by
  refine before.imp_left fun ⟨other, inside, isWait⟩ => ?_
  rw [taken] at inside
  rcases List.mem_cons.mp inside with rfl | later
  · exact absurd isWait different
  · exact ⟨other, later, isWait⟩

theorem complete
    (armed : Armed state.epoll state.ioWaits (reported { state with polling := some frame }))
    (present : state.ioWaits frame.fd = some entry) : ArmedState (state.complete frame) := by
  rw [complete_eq present]
  exact Armed.excuse armed _ ⟨fun _ _ => rfl, Nat.le_refl _⟩ (.inr ⟨frame, rfl, rfl⟩)
    fun key _ => id

theorem handle (armed : ArmedState state) (rest : state.polling = none)
    (handles : Handles state after) : ArmedState after := by
  cases handles with
  | other taken noWait =>
    exact Armed.mono armed fun key => reported_of_tail taken (noWait key)
  | @stale event batch fd taken isWait absent =>
    have wanted : wantedWait state.ioWaits fd = none := by rw [wantedWait, absent]; rfl
    exact Armed.refresh armed (wanted ▸ state.epoll.changed_del fd) fun key different =>
      reported_of_tail taken (by simp [isWait, Ne.symm different])
  | @notReady event batch fd entry epoll taken isWait present changed =>
    have wanted : wantedWait state.ioWaits fd = entry.interest fd := by
      rw [wantedWait, present, bind_some]
    exact Armed.refresh armed (wanted ▸ changed) fun key different =>
      reported_of_tail taken (by simp [isWait, Ne.symm different])
  | @completes event batch fd entry registration completed taken isWait present ready =>
    refine complete (Armed.mono armed fun key before => ?_) present
    by_cases same : key = fd
    · exact .inr ⟨_, rfl, same.symm⟩
    · refine (reported_of_tail taken (by simp [isWait, Ne.symm same]) before).imp_right ?_
      rintro ⟨frame, polls, -⟩
      simp [rest] at polls

theorem settle (armed : Armed state.epoll state.ioWaits fun key => key = fd ∨ reported state key)
    (rest : state.polling = none) : ArmedState (state.eraseOrUpdate fd entry) := by
  obtain ⟨polling, epoll, erases, steady, changed⟩ := eraseOrUpdate_spec state fd entry
  obtain rfl := steady (by simp [rest])
  rw [erases]
  refine Armed.change armed ?_ fun key different before => before.resolve_left different
  rw [kept_bind_interest]
  exact changed

theorem enqueued (armed : ArmedState state) (inv : Inv state) (enqueues : Enqueues state after) :
    ArmedState after := by
  cases enqueues with
  | cancelled => exact armed
  | @completes frame registration completed calls polls =>
    obtain ⟨entry, present, -⟩ := (inv.frames frame polls).entry
    refine complete (Armed.mono armed fun key before => before.imp_right ?_) present
    rintro ⟨other, isFrame, same⟩
    cases polls.symm.trans isFrame
    exact ⟨_, rfl, same⟩
  | settles calls polls present =>
    refine settle (Armed.mono armed fun key before => ?_) rfl
    rcases before with inBatch | ⟨other, isFrame, same⟩
    · exact .inr (.inl inBatch)
    · cases polls.symm.trans isFrame
      exact .inl same.symm
  | @lost frame calls polls absent =>
    obtain ⟨entry, present, -⟩ := (inv.frames frame polls).entry
    cases absent.symm.trans present

end ArmedState

theorem armed_of_step {available : Bool} {action : Action} (armed : ArmedState state)
    (inv : Inv state) (permitted : undisturbed state action)
    (steps : step available state action = some after) : ArmedState after := by
  have ready : ∀ fails, ArmedState (withFails state fails) ∧ Inv (withFails state fails) :=
    fun fails => ⟨armed, ⟨inv.sound.entries, inv.sound.balanced⟩, inv.frames⟩
  cases action with
  | registerWait registration memory fails =>
    cases steps
    exact (ready fails).1.register permitted.1 (registers_registerNativeIoWait _ _ _ _)
  | cancelWait result runningTask fails =>
    cases steps
    exact (ready fails).1.cancel permitted.1 (cancels_cancelNativeIoWait _ _ _ _)
  | writeResult result value =>
    cases steps
    exact armed
  | registerChannel channel events fails =>
    cases steps
    exact (ready fails).1.channel (ready fails).2 (channelCalls_registerNetChannel _ _ _ _)
  | updateChannel channel events fails =>
    cases steps
    exact (ready fails).1.channel (ready fails).2 (channelCalls_updateNetChannel _ _ _)
  | unregisterChannel channel fails =>
    cases steps
    exact (ready fails).1.channel (ready fails).2 (channelCalls_unregisterNetChannel _ _)
  | closeFd fd =>
    cases steps
    have wanted : wantedWait state.ioWaits fd = none := by rw [wantedWait, permitted.2.1]; rfl
    exact Armed.refresh armed (wanted ▸ state.epoll.changed_close fd) fun key _ => id
  | epollWait events =>
    obtain ⟨⟨-, rest, empty⟩, ends⟩ := ite_none_right_eq_some.mp steps
    cases ends
    intro noFailure fd
    by_cases isReported : events.any (·.token = .wait fd) = true
    · exact .inl (.inl (by simpa using isReported))
    · refine .inr ?_
      unfold armedWait Epoll.report
      dsimp only
      rw [if_neg isReported]
      refine (armed noFailure fd).resolve_left ?_
      simp [reported, empty, rest.1]
  | handleEvent fails =>
    obtain ⟨rest, handles⟩ := ite_none_right_eq_some.mp steps
    exact (ready fails).1.handle rest.1 (handles_handleEvent handles)
  | enqueued fails => exact (ready fails).1.enqueued (ready fails).2 (enqueues_enqueued steps)

theorem inv_and_armed {available : Bool}
    (reached : (system available).ReachableUnder undisturbed state) :
    Inv state ∧ ArmedState state := by
  induction reached with
  | start starts =>
    obtain ⟨fds, rfl⟩ : ∃ fds, _ = start fds := starts
    exact ⟨inv_start fds, fun _ fd => .inr rfl⟩
  | next _ permitted steps ih =>
    exact ⟨inv_of_step ih.1 (reentrySafe_of_undisturbed permitted) steps,
      armed_of_step ih.2 ih.1 permitted steps⟩

/-- Which events the epoll instance is armed for, by a wait. -/
def armedEvents (state : IoWaitsState) (fd : Int) : Bool × Bool :=
  match armedWait state.epoll fd with
  | some interest => (interest.epollIn, interest.epollOut)
  | none => (false, false)

def occupiedSlots (state : IoWaitsState) (fd : Int) : Bool × Bool :=
  match state.ioWaits fd with
  | some entry => (entry.read.isSome, entry.write.isSome)
  | none => (false, false)

structure Consistent (state : IoWaitsState) : Prop where
  /-- A registration that was accepted is in the table until it is finished. -/
  kept : ∀ id, state.ledger.accepted id = true →
    ((∃ entry, state.ioWaits (state.registrations id).fd = some entry ∧ entry.contains id = true) ↔
      state.ledger.completions id = 0 ∧ state.ledger.cancels id = 0)
  finishedOnce : ∀ id, state.ledger.completions id + state.ledger.cancels id ≤ 1
  destroyed : ∀ id, state.ledger.accepted id = true →
    state.ledger.destroys id = state.ledger.completions id + state.ledger.cancels id
  occupied : ∀ fd entry, state.ioWaits fd = some entry → entry.read ≠ none ∨ entry.write ≠ none
  slots : ∀ fd entry, state.ioWaits fd = some entry → ∀ id, entry.contains id = true →
    (entry.read = some id ↔ (state.registrations id).events.readable = true) ∧
      (entry.write = some id ↔ (state.registrations id).events.writable = true)
  apart : ∀ fd, state.ioWaits fd = none ∨ state.netChannels fd = none
  /-- If `epoll_ctl` did not fail, the slots are armed or their event is in the
  batch. -/
  armed : state.epoll.failures = 0 → ∀ fd, (∃ event ∈ state.batch, event.token = .wait fd) ∨
    armedEvents state fd = occupiedSlots state fd

theorem armedEvents_eq (same : armedWait state.epoll fd = wantedWait state.ioWaits fd) :
    armedEvents state fd = occupiedSlots state fd := by
  unfold armedEvents occupiedSlots
  rw [same, wantedWait]
  cases state.ioWaits fd with
  | none => rfl
  | some entry =>
    obtain ⟨read, write⟩ := entry
    cases read <;> cases write <;> rfl

theorem consistent_of_inv (inv : Inv state) (armed : ArmedState state) (rest : atRest state) :
    Consistent state where
  kept := by
    intro id accepted
    have waits := inv.sound.balanced.waiting_iff id
    simp only [accepted, true_and, Ledger.finishes, Nat.add_eq_zero_iff] at waits
    rw [← waits]
    constructor
    · rintro ⟨entry, present, contains⟩
      exact inTable_of_contains present contains
    · rintro ⟨fd, entry, present, contains⟩
      obtain ⟨own, -⟩ := (inv.sound.entries fd entry present).fits id contains
      exact ⟨entry, own ▸ present, contains⟩
  finishedOnce := inv.sound.balanced.once
  destroyed := by
    intro id accepted
    have none : pending state = [] := by simp [pending, rest.1, rest.2]
    exact (none ▸ inv.sound.balanced).destroys_eq accepted
  occupied := by
    intro fd entry present
    by_contra empty
    rw [not_or, not_not, not_not, ← IoWaitEntry.isEmpty_iff] at empty
    obtain ⟨frame, polls, -⟩ := (inv.sound.entries fd entry present).occupied empty
    simp [rest.1] at polls
  slots := fun fd entry present id contains =>
    ((inv.sound.entries fd entry present).fits id contains).2
  apart := by
    intro fd
    cases present : state.ioWaits fd with
    | none => exact .inl rfl
    | some entry => exact .inr (inv.sound.entries fd entry present).apart
  armed := by
    intro noFailure fd
    refine (armed noFailure fd).imp (fun isReported => ?_) armedEvents_eq
    exact isReported.resolve_right (by simp [rest.1])

theorem ioWaits_of_not_accepted {available : Bool} {registration : IoWaitRegistration}
    {memory : WaitMemory} {outcome : IoWaitsState × Bool} (inv : Inv state)
    (rest : state.polling = none)
    (registers : Registers state available registration memory outcome)
    (refused : outcome.2 = false) : outcome.1.ioWaits = state.ioWaits := by
  cases registers with
  | refused | noMemory => rfl
  | accepted => cases refused
  | rolledBack value valid found removed steady failed changed =>
    obtain ⟨-, -, free⟩ := waitError_eq_none valid
    obtain ⟨fresh, -⟩ := inv.sound.fits_getD registration found
    rw [found] at free
    rw [IoWaitEntry.remove_add free fresh] at removed
    subst removed
    exact inv.sound.update_kept_eq found (by simp [rest])

/-- After each call and each event the table, the registrations and the epoll
instance agree, and a registration that is refused changes nothing. -/
theorem ioWaits_consistent (available : Bool) (state : IoWaitsState)
    (reached : (system available).ReachableUnder undisturbed state) (rest : atRest state) :
    Consistent state ∧ ∀ registration memory fails,
      ((withFails state fails).registerNativeIoWait available registration memory).2 = false →
        ((withFails state fails).registerNativeIoWait available registration memory).1.ioWaits =
          state.ioWaits := by
  obtain ⟨inv, armed⟩ := inv_and_armed reached
  refine ⟨consistent_of_inv inv armed rest, fun registration memory fails refused => ?_⟩
  have ready : Inv (withFails state fails) :=
    ⟨⟨inv.sound.entries, inv.sound.balanced⟩, inv.frames⟩
  have same := ioWaits_of_not_accepted ready rest.1
    (registers_registerNativeIoWait _ available registration memory) refused
  exact same

theorem ioWaits_consistent_cancelledInBatch :
    ∃ state, (system true).ReachableUnder undisturbed state ∧ atRest state ∧
      (state.batch ≠ [] ∧ state.ledger.cancels 1 = 1 ∧ (state.ioWaits 5).isSome = true) ∧
        Consistent state := by
  obtain ⟨state, reached, rest, observed⟩ := (system true).exists_reachableUnder
    undisturbed (show (system true).initial (start fun _ => 0) from ⟨_, rfl⟩)
    [.registerWait ⟨5, ⟨true, false, false, false⟩, 0, 0⟩ ⟨false, false, false⟩ [],
      .registerWait ⟨5, ⟨false, true, false, false⟩, 1, 1⟩ ⟨false, false, false⟩ [],
      .epollWait [⟨.wait 5, ⟨true, true, false, false, false⟩⟩],
      .cancelWait 1 none [], .enqueued []]
    (fun state => atRest state ∧ state.batch ≠ [] ∧ state.ledger.cancels 1 = 1 ∧
      (state.ioWaits 5).isSome = true) (by decide)
  exact ⟨state, reached, rest, observed, (ioWaits_consistent true state reached rest).1⟩

end IoWaits

end AsyncFlow
