import AsyncFlow.IoWaitCalls

/-!
# IO completion and tasks that run in the middle of it

While `poll_native_io` completes the waits of an event it holds an iterator of the
table and the registrations that it collected.  When the local queue is full it
executes other tasks in between.  As long as those neither cancel a wait for the
same descriptor nor make the table grow, each registration is finished and
destroyed once.
-/

namespace AsyncFlow

open List Option Function IoWaitEntry

namespace IoWaits

variable {state after : IoWaitsState} {fd : Int} {entry : IoWaitEntry} {frame : PollFrame}
  {registration : IoWaitRegistration} {memory : WaitMemory} {result : ResultId}

def pending (state : IoWaitsState) : List Nat :=
  state.cancelling ++ (state.polling.map PollFrame.registration).toList

/-- The registrations are in their slots, no channel has the descriptor, and the entry
is not empty unless it is polled. -/
structure EntrySound (registrations : Nat → IoWaitRegistration) (netChannels : Int → Option Nat)
    (polled : Int → Prop) (fd : Int) (entry : IoWaitEntry) : Prop where
  fits : entry.Fits registrations fd
  apart : netChannels fd = none
  occupied : entry.isEmpty = true → polled fd

variable {ioWaits : Int → Option IoWaitEntry} {polled : Int → Prop}

theorem entrySound_update {registrations : Nat → IoWaitRegistration}
    {netChannels : Int → Option Nat} {changed : Option IoWaitEntry}
    (others : ∀ key, key ≠ fd → ∀ entry ∈ ioWaits key,
      EntrySound registrations netChannels polled key entry)
    (own : ∀ entry ∈ changed, EntrySound registrations netChannels polled fd entry) :
    ∀ key, ∀ entry ∈ update ioWaits fd changed key,
      EntrySound registrations netChannels polled key entry :=
  (Function.forall_update_iff ioWaits fun key slot =>
    ∀ entry ∈ slot, EntrySound registrations netChannels polled key entry).mpr ⟨own, others⟩

/-- What holds of the table between the moves of `poll_native_io`. -/
structure Sound (state : IoWaitsState) (polled : Int → Prop) : Prop where
  entries : ∀ fd, ∀ entry ∈ state.ioWaits fd,
    EntrySound state.registrations state.netChannels polled fd entry
  balanced : state.ledger.Balanced (InTable state.ioWaits) (pending state)

/-- What `poll_native_io` still uses is valid. -/
structure FrameValid (ioWaits : Int → Option IoWaitEntry) (frame : PollFrame) : Prop where
  iterator : frame.iteratorValid = true
  nodup : frame.completed.Nodup
  entry : ∃ entry, ioWaits frame.fd = some entry ∧ ∀ id ∈ frame.completed, entry.contains id = true

structure Inv (state : IoWaitsState) : Prop where
  sound : Sound state fun fd => ∃ frame ∈ state.polling, frame.fd = fd
  frames : ∀ frame ∈ state.polling, FrameValid state.ioWaits frame

theorem inv_start (fds : Nat → Int) : Inv (start fds) where
  sound :=
    { entries := fun _ _ present => by cases present
      balanced := Ledger.balanced_empty.congr fun _ => iff_false_intro not_inTable_new }
  frames := fun _ polls => by cases polls

variable {available : Bool}

theorem waitError_eq_none {events : IoEvents} (valid : state.waitError available fd events = none) :
    (events.readable = true ∨ events.writable = true) ∧ state.netChannels fd = none ∧
      ((state.ioWaits fd).getD .new).conflicts events = false := by
  unfold IoWaitsState.waitError at valid
  split at valid
  · cases valid
  split at valid
  · cases valid
  split at valid
  · cases valid
  split at valid
  · cases valid
  next supported _ free =>
    refine ⟨by cases reads : events.readable <;> simp_all, ?_⟩
    cases present : state.ioWaits fd with
    | none => simp_all [conflicts, new]
    | some entry => simp_all

namespace Sound

variable {polled : Int → Prop}

theorem not_contains_created (sound : Sound state polled) (present : state.ioWaits fd = some entry) :
    ¬ entry.contains state.ledger.created = true := fun contains =>
  sound.balanced.not_waiting_created (inTable_of_contains present contains)

theorem entries_create (sound : Sound state polled) (registration : IoWaitRegistration) :
    ∀ fd, ∀ entry ∈ state.ioWaits fd, EntrySound
      (update state.registrations state.ledger.created registration)
      state.netChannels polled fd entry := by
  intro fd entry present
  have old := sound.entries fd entry present
  refine ⟨old.fits.congr fun id contains => ?_, old.apart, old.occupied⟩
  refine update_of_ne ?_ _ _
  rintro rfl
  exact sound.not_contains_created present contains

theorem fits_getD (sound : Sound state polled) (registration : IoWaitRegistration)
    (found : (state.ioWaits fd).getD .new = entry) : ¬ entry.contains state.ledger.created = true ∧
      entry.Fits (update state.registrations state.ledger.created registration) fd := by
  cases present : state.ioWaits fd with
  | none =>
    obtain rfl : new = entry := by simpa [present] using found
    simp [IoWaitEntry.Fits]
  | some entry' =>
    obtain rfl : entry' = entry := by simpa [present] using found
    exact ⟨sound.not_contains_created present,
      (sound.entries_create registration fd entry' present).fits⟩

theorem update_kept_eq (sound : Sound state polled)
    (found : (state.ioWaits fd).getD .new = entry) (unpolled : ¬ polled fd) :
    update state.ioWaits fd entry.kept = state.ioWaits := by
  refine (update_eq_self_iff ..).mpr ?_
  cases present : state.ioWaits fd with
  | none =>
    obtain rfl : new = entry := by simpa [present] using found
    rfl
  | some entry' =>
    obtain rfl : entry' = entry := by simpa [present] using found
    rw [kept, if_neg fun empty => unpolled  ((sound.entries fd entry' present).occupied empty)]

end Sound

theorem FrameValid.update {changed : IoWaitEntry} (valid : FrameValid ioWaits frame)
    (keeps : ∀ entry, ioWaits fd = some entry → ∀ id, entry.contains id = true →
      changed.contains id = true) :
    FrameValid (Function.update ioWaits fd (some changed)) frame := by
  obtain ⟨entry, present, collected⟩ := valid.entry
  refine ⟨valid.iterator, valid.nodup, ?_⟩
  by_cases same : frame.fd = fd
  · subst same
    exact ⟨changed, Function.update_self .., fun id inside =>
      keeps entry present id (collected id inside)⟩
  · exact ⟨entry, by rw [Function.update_of_ne same, present], collected⟩

theorem FrameValid.update_of_ne (valid : FrameValid ioWaits frame) (different : frame.fd ≠ fd)
    (changed : Option IoWaitEntry) : FrameValid (Function.update ioWaits fd changed) frame :=
  ⟨valid.iterator, valid.nodup, by rw [Function.update_of_ne different]; exact valid.entry⟩

theorem inTable_enter {id : Nat}
    (valid : state.waitError available registration.fd registration.events = none)
    (found : (state.ioWaits registration.fd).getD .new = entry) :
    InTable (update state.ioWaits registration.fd
      (some (entry.add registration.events state.ledger.created))) id ↔
        InTable state.ioWaits id ∨ id = state.ledger.created := by
  obtain ⟨supported, -, free⟩ := waitError_eq_none valid
  rw [found] at free
  refine inTable_add fun id => ?_
  have contains : (entry.add registration.events state.ledger.created).contains id = true ↔
      entry.contains id = true ∨ id = state.ledger.created :=
    contains_add free supported
  cases present : state.ioWaits registration.fd with
  | none =>
    obtain rfl : new = entry := by simpa [present] using found
    simp [contains]
  | some entry' =>
    obtain rfl : entry' = entry := by simpa [present] using found
    simp [contains]

theorem Sound.enter {epoll : Epoll} {results : ResultId → IoResult} (sound : Sound state polled)
    (valid : state.waitError available registration.fd registration.events = none)
    (found : (state.ioWaits registration.fd).getD .new = entry) : Sound { state with
        registrations := update state.registrations state.ledger.created registration
        ioWaits := update state.ioWaits registration.fd
          (some (entry.add registration.events state.ledger.created))
        epoll := epoll
        results := results
        ledger := state.ledger.accept } polled := by
  obtain ⟨supported, noChannel, free⟩ := waitError_eq_none valid
  obtain ⟨fresh, fits⟩ := sound.fits_getD registration found
  rw [found] at free
  refine ⟨entrySound_update (fun fd _ => sound.entries_create registration fd) ?_,
    sound.balanced.accept fun id => inTable_enter valid found⟩
  rintro _ ⟨⟩
  refine ⟨fits.add free supported fresh ?_ ?_, noChannel, fun empty => ?_⟩
  · rw [update_self]
  · rw [update_self]
  · exact absurd ((contains_add free supported).mpr (.inr rfl)) (not_contains_of_isEmpty empty)

variable {outcome : IoWaitsState × Bool}

theorem Inv.register (inv : Inv state)
    (registers : Registers state available registration memory outcome)
    (safe : insertsSafely state registration.fd memory)
    (carriedOut : ∀ frame ∈ state.polling, frame.fd = registration.fd →
      state.epoll.failsNext = []) : Inv outcome.1 := by
  cases registers with
  | refused => exact ⟨⟨inv.sound.entries, inv.sound.balanced⟩, inv.frames⟩
  | noMemory =>
    exact ⟨⟨inv.sound.entries_create registration, inv.sound.balanced.reject⟩, inv.frames⟩
  | accepted valid found steady changed =>
    obtain rfl := steady safe
    refine ⟨inv.sound.enter valid found, fun frame polls => ?_⟩
    refine (inv.frames frame polls).update fun entry' present id contains => ?_
    obtain ⟨supported, -, free⟩ := waitError_eq_none valid
    rw [found] at free
    obtain rfl : entry' = _ := by simpa [present] using found
    exact (contains_add free supported).mpr (.inl contains)
  | rolledBack value valid found removed steady failed changed =>
    have away : ∀ frame ∈ state.polling, frame.fd ≠ registration.fd := fun frame polls same =>
      failed (carriedOut frame polls same)
    obtain ⟨-, -, free⟩ := waitError_eq_none valid
    obtain ⟨fresh, -⟩ := inv.sound.fits_getD registration found
    rw [found] at free
    rw [remove_add free fresh] at removed
    subst removed
    have polling := steady safe fun frame polls same => absurd same (away frame polls)
    have ioWaits := inv.sound.update_kept_eq found (by simpa using away)
    subst polling
    rw [ioWaits]
    exact ⟨⟨inv.sound.entries_create registration, inv.sound.balanced.reject⟩, inv.frames⟩

/-! ### Cancelling and completing -/

theorem inTable_remove_of_sound {removed : Nat} (sound : Sound state polled)
    (changed : Option IoWaitEntry) (present : state.ioWaits fd = some entry)
    (contains : entry.contains removed = true)
    (leaves : ∀ id, (∃ entry ∈ changed, entry.contains id = true) ↔
      (entry.remove removed).contains id = true) (id : Nat) :
    InTable (update state.ioWaits fd changed) id ↔ InTable state.ioWaits id ∧ id ≠ removed :=
  inTable_remove present ((sound.entries fd entry present).fits removed contains).1
    (fun fd entry present => (sound.entries fd entry present).fits)
    fun id => (leaves id).trans contains_remove

theorem Inv.cancel (inv : Inv state) (cancels : Cancels state result outcome)
    (away : ∀ frame ∈ state.polling, frame.fd ≠ (state.results result).fd) : Inv outcome.1 := by
  cases cancels with
  | refused => exact ⟨⟨inv.sound.entries, inv.sound.balanced⟩, inv.frames⟩
  | @cancelled fd entry registration polling epoll cancelling ledger own present found
      steady changed ends =>
      subst own
      obtain rfl := steady away
      have contains := contains_of_find found
      have old := inv.sound.entries _ entry present
      have balanced := inv.sound.balanced.cancel (inTable_of_contains present contains)
        (inTable_remove_of_sound inv.sound _ present contains fun id =>
          exists_mem_kept_iff)
      refine ⟨⟨entrySound_update (fun fd _ => inv.sound.entries fd) fun kept isKept => ?_, ?_⟩,
        fun frame polls => (inv.frames frame polls).update_of_ne (away frame polls) _⟩
      · obtain ⟨rfl, occupied⟩ := kept_eq_some_iff.mp isKept
        exact ⟨old.fits.remove registration, old.apart, fun empty => by simp [occupied] at empty⟩
      · rcases ends with ⟨rfl, rfl⟩ | ⟨rfl, rfl⟩
        · exact balanced.destroy (.refl _)
        · exact balanced

theorem Sound.complete (sound : Sound state (· = frame.fd)) (idle : state.polling = none)
    (present : state.ioWaits frame.fd = some entry)
    (contains : ∀ id ∈ frame.registration :: frame.completed, entry.contains id = true)
    (nodup : (frame.registration :: frame.completed).Nodup) (valid : frame.iteratorValid = true) :
    Inv (state.complete frame) := by
  rw [complete_eq present]
  have own := contains frame.registration mem_cons_self
  have old := sound.entries _ entry present
  refine ⟨⟨fun fd entry' inside => ?_, ?_⟩, ?_⟩
  · obtain ⟨fits, apart, occupied⟩ := entrySound_update (fun fd _ => sound.entries fd)
      (fun removed isRemoved => by
        cases isRemoved
        exact ⟨old.fits.remove frame.registration, old.apart, fun _ => rfl⟩) fd entry' inside
    exact ⟨fits, apart, fun empty => ⟨frame, rfl, (occupied empty).symm⟩⟩
  · have balanced := sound.balanced.complete (inTable_of_contains present own)
      (inTable_remove_of_sound sound (some (entry.remove frame.registration)) present own
        fun id => by simp)
    refine balanced.perm ?_
    simp only [pending, idle, map_none, toList_none, append_nil, map_some, toList_some]
    exact (perm_append_singleton _ _).symm
  · rintro _ ⟨⟩
    obtain ⟨notAgain, nodup⟩ := nodup_cons.mp nodup
    refine ⟨valid, nodup, _, update_self .., fun id inside => ?_⟩
    exact contains_remove.mpr ⟨contains id (mem_cons_of_mem _ inside),
      fun same => notAgain (same ▸ inside)⟩

theorem Sound.settle (sound : Sound state (· = fd)) (idle : state.polling = none)
    (present : state.ioWaits fd = some entry) : Inv (state.eraseOrUpdate fd entry) := by
  obtain ⟨polling, epoll, erases, steady, -⟩ := eraseOrUpdate_spec state fd entry
  obtain rfl := steady (by simp [idle])
  rw [erases]
  have old := sound.entries fd entry present
  refine ⟨⟨entrySound_update (fun key different entry' inside => ?_) fun entry' isKept => ?_, ?_⟩,
    by simp [idle]⟩
  · obtain ⟨fits, apart, occupied⟩ := sound.entries key entry' inside
    exact ⟨fits, apart, fun empty => absurd (occupied empty) different⟩
  · obtain ⟨rfl, occupied⟩ := kept_eq_some_iff.mp isKept
    exact ⟨old.fits, old.apart, fun empty => by simp [occupied] at empty⟩
  · refine sound.balanced.congr fun id => ?_
    rw [inTable_update_iff, exists_mem_kept_iff, inTable_iff fd, present]
    simp

theorem Inv.resume (inv : Inv state) (calls : state.cancelling = [])
    (polls : state.polling = some frame) :
    Sound { state.destroy frame.registration with polling := none } (· = frame.fd) := by
  refine ⟨fun fd entry present => ?_, inv.sound.balanced.destroy ?_⟩
  · obtain ⟨fits, apart, occupied⟩ := inv.sound.entries fd entry present
    refine ⟨fits, apart, fun empty => ?_⟩
    obtain ⟨polling, isFrame, same⟩ := occupied empty
    cases polls.symm.trans isFrame
    exact same.symm
  · simp [pending, calls, polls, IoWaitsState.destroy]

theorem Inv.enqueued (inv : Inv state) (enqueues : Enqueues state after) : Inv after := by
  cases enqueues with
  | cancelled calls =>
    refine ⟨⟨inv.sound.entries, inv.sound.balanced.destroy ?_⟩, inv.frames⟩
    simp [pending, calls, IoWaitsState.destroy]
  | @completes frame registration completed calls polls rest =>
    obtain ⟨entry, present, collected⟩ := (inv.frames frame polls).entry
    refine Sound.complete ?_ rfl present (rest ▸ collected) ?_ (inv.frames frame polls).iterator
    · exact inv.resume calls polls
    · exact rest ▸ (inv.frames frame polls).nodup
  | settles calls polls present => exact (inv.resume calls polls).settle rfl present
  | @lost frame calls polls absent =>
    obtain ⟨entry, present, -⟩ := (inv.frames frame polls).entry
    cases absent.symm.trans present

theorem Inv.handle (inv : Inv state) (idle : state.polling = none)
    (handles : Handles state after) : Inv after := by
  cases handles with
  | other | stale | notReady => exact ⟨⟨inv.sound.entries, inv.sound.balanced⟩, inv.frames⟩
  | @completes event batch fd entry registration completed taken isWait present ready =>
    have sound : Sound { state with batch := batch } (· = fd) := by
      refine ⟨fun key entry inside => ?_, inv.sound.balanced⟩
      obtain ⟨fits, apart, occupied⟩ := inv.sound.entries key entry inside
      refine ⟨fits, apart, fun empty => ?_⟩
      obtain ⟨frame, polls, -⟩ := occupied empty
      simp [idle] at polls
    refine Sound.complete ?_ idle present ?_ ?_ rfl
    · exact sound
    · intro id inside
      exact contains_of_mem_collectReady (ready ▸ inside)
    · exact ready ▸ nodup_collectReady

theorem Inv.channel (inv : Inv state) (calls : ChannelCalls state after) : Inv after := by
  cases calls with
  | refused => exact inv
  | @touched fd netChannels channels epoll noWait others =>
    refine ⟨⟨fun key entry present => ?_, inv.sound.balanced⟩, inv.frames⟩
    obtain ⟨fits, apart, occupied⟩ := inv.sound.entries key entry present
    refine ⟨fits, ?_, occupied⟩
    have different : key ≠ fd := by
      rintro rfl
      rcases noWait with absent | isChannel
      · cases absent ▸ present
      · simp [apart] at isChannel
    exact (others key different).trans apart

/-- What tasks must not do while `poll_native_io` enqueues one: make the table grow,
cancel a wait for its descriptor, or fail to register another. -/
def reentrySafe (state : IoWaitsState) (action : Action) : Prop :=
  match action with
  | .registerWait registration memory fails => ∀ frame ∈ state.polling,
      if registration.fd = frame.fd then fails = []
      else (state.ioWaits registration.fd).isSome = true ∨ memory.rehashes = false
  | .cancelWait result _ _ => ∀ frame ∈ state.polling, frame.fd ≠ (state.results result).fd
  | _ => True

instance (state : IoWaitsState) (action : Action) : Decidable (reentrySafe state action) :=
  match action with
  | .registerWait _ _ _ => inferInstanceAs (Decidable (∀ frame ∈ state.polling, ite _ _ _))
  | .cancelWait _ _ _ => inferInstanceAs (Decidable (∀ frame ∈ state.polling, _ ≠ _))
  | .writeResult _ _ | .registerChannel _ _ _ | .updateChannel _ _ _ | .unregisterChannel _ _
  | .closeFd _ | .epollWait _ | .handleEvent _ | .enqueued _ => inferInstanceAs (Decidable True)

theorem Inv.insertsSafely {fails : List (Option Errno)} (inv : Inv state)
    (safe : reentrySafe state (.registerWait registration memory fails)) :
    insertsSafely state registration.fd memory := by
  cases polls : state.polling with
  | none => exact .inl polls
  | some frame =>
    have step := safe frame polls
    split at step
    next same =>
      obtain ⟨entry, present, -⟩ := (inv.frames frame polls).entry
      exact .inr (.inl (by rw [same, present, isSome_some]))
    · exact .inr step

theorem inv_of_step {action : Action} (inv : Inv state) (safe : reentrySafe state action)
    (steps : step available state action = some after) : Inv after := by
  have ready : ∀ fails, Inv (withFails state fails) := fun fails =>
    ⟨⟨inv.sound.entries, inv.sound.balanced⟩, inv.frames⟩
  cases action with
  | registerWait registration memory fails =>
    cases steps
    refine (ready fails).register
      (registers_registerNativeIoWait (withFails state fails) available registration memory)
      (inv.insertsSafely safe) fun frame polls same => ?_
    · have := safe frame polls
      rwa [if_pos same.symm] at this
  | cancelWait result runningTask fails =>
    cases steps
    exact (ready fails).cancel (cancels_cancelNativeIoWait _ _ _ _) safe
  | writeResult result value | closeFd fd =>
    cases steps
    exact ⟨⟨inv.sound.entries, inv.sound.balanced⟩, inv.frames⟩
  | registerChannel channel events fails =>
    cases steps
    exact (ready fails).channel (channelCalls_registerNetChannel _ _ _ _)
  | updateChannel channel events fails =>
    cases steps
    exact (ready fails).channel (channelCalls_updateNetChannel _ _ _)
  | unregisterChannel channel fails =>
    cases steps
    exact (ready fails).channel (channelCalls_unregisterNetChannel _ _)
  | epollWait events =>
    obtain ⟨-, ends⟩ := ite_none_right_eq_some.mp steps
    cases ends
    exact ⟨⟨inv.sound.entries, inv.sound.balanced⟩, inv.frames⟩
  | handleEvent fails =>
    obtain ⟨rest, handles⟩ := ite_none_right_eq_some.mp steps
    exact (ready fails).handle rest.1 (handles_handleEvent handles)
  | enqueued fails => exact (ready fails).enqueued (enqueues_enqueued steps)

theorem inv_of_reachable (reached : (system available).ReachableUnder reentrySafe state) :
    Inv state := by
  induction reached with
  | start starts =>
    obtain ⟨fds, rfl⟩ : ∃ fds, _ = start fds := starts
    exact inv_start fds
  | next _ permitted steps ih => exact inv_of_step ih permitted steps

/-- What `poll_native_io` and `cancel_native_io_wait` still use is valid, and no
registration was finished or destroyed twice. -/
structure Survives (state : IoWaitsState) : Prop where
  entry : ∀ frame ∈ state.polling,
    frame.iteratorValid = true ∧ (state.ioWaits frame.fd).isSome = true
  collected : ∀ frame ∈ state.polling, ∀ id ∈ frame.registration :: frame.completed,
    state.ledger.destroys id = 0
  cancelled : ∀ id ∈ state.cancelling, state.ledger.destroys id = 0
  finishedOnce : ∀ id, state.ledger.completions id + state.ledger.cancels id ≤ 1
  destroyedOnce : ∀ id, state.ledger.destroys id ≤ 1

theorem Inv.survives (inv : Inv state) : Survives state where
  entry := by
    intro frame polls
    obtain ⟨entry, present, -⟩ := (inv.frames frame polls).entry
    exact ⟨(inv.frames frame polls).iterator, by rw [present, isSome_some]⟩
  collected := by
    intro frame polls id inside
    rcases mem_cons.mp inside with rfl | later
    · exact inv.sound.balanced.alive_of_mem_pending (by simp [pending, mem_def.mp polls])
    · obtain ⟨entry, present, collected⟩ := (inv.frames frame polls).entry
      exact inv.sound.balanced.alive_of_waiting (inTable_of_contains present (collected id later))
  cancelled := fun id inside =>
    inv.sound.balanced.alive_of_mem_pending (mem_append_left _ inside)
  finishedOnce := inv.sound.balanced.once
  destroyedOnce := inv.sound.balanced.destroys_le_one

/-- While tasks that run in the middle of `poll_native_io` keep to `reentrySafe`,
IO completion survives them. -/
theorem completion_survives_reentry (available : Bool) (state : IoWaitsState)
    (reached : (system available).ReachableUnder reentrySafe state) : Survives state :=
  (inv_of_reachable reached).survives

def waitsForBoth : List Action :=
  [.registerWait ⟨5, ⟨true, false, false, false⟩, 0, 0⟩ ⟨false, false, false⟩ [],
    .registerWait ⟨5, ⟨false, true, false, false⟩, 1, 1⟩ ⟨false, false, false⟩ []]

/-- An event that makes both ready is handled up to the first completion. -/
def bothReady : List Action :=
  [.epollWait [⟨.wait 5, ⟨true, true, false, false, false⟩⟩], .handleEvent []]

theorem completion_survives_reentry_otherCancel :
    ∃ state, (system true).ReachableUnder reentrySafe state ∧
      (state.polling.map PollFrame.completed = some [1] ∧ state.cancelling = [2]) ∧
        Survives state := by
  obtain ⟨state, reached, observed⟩ := (system true).exists_reachableUnder
    reentrySafe (show (system true).initial (start fun _ => 0) from ⟨_, rfl⟩)
    (.flatten [waitsForBoth,
      [.registerWait ⟨7, ⟨true, false, false, false⟩, 2, 2⟩ ⟨false, false, false⟩ []],
      bothReady, [.cancelWait 2 none []]])
    (fun state => state.polling.map PollFrame.completed = some [1] ∧ state.cancelling = [2])
    (by decide)
  exact ⟨state, reached, observed, completion_survives_reentry true state reached⟩

/-- Between the completions of two waits a task cancels the second, and the entry is
erased.  `poll_native_io` then completes the registration and destroys it once more. -/
theorem cancelled_wait_completed : (∃ state, (system true).Reachable state ∧
      state.polling.map (fun frame => (frame.iteratorValid, frame.completed)) =
        some (false, [1]) ∧ state.ledger.destroys 1 = 1) ∧
    ∃ state, (system true).Reachable state ∧ state.ledger.cancels 1 = 1 ∧
      state.ledger.completions 1 = 1 ∧ state.ledger.destroys 1 = 2 := by
  have starts : (system true).initial (start fun _ => 0) := ⟨_, rfl⟩
  constructor
  · exact (system true).exists_reachableUnder (fun _ _ => True) starts
      (.flatten [waitsForBoth, bothReady, [.cancelWait 1 none [], .enqueued []]]) _ (by decide)
  · exact (system true).exists_reachableUnder (fun _ _ => True) starts (.flatten [waitsForBoth,
        bothReady, [.cancelWait 1 none [], .enqueued [], .enqueued [], .enqueued []]])
      _ (by decide)

end IoWaits

end AsyncFlow
