import AsyncFlow.IoWaitTable

/-!
# What the calls on IO waits do

What each function does to the state: which entry it leaves behind, which
iterators stay valid, and which interest it wants the epoll instance to have.
-/

namespace AsyncFlow

open Function Option IoWaitsState

namespace IoWaitEntry

def kept (entry : IoWaitEntry) : Option IoWaitEntry :=
  if entry.isEmpty then none else some entry

variable {entry present : IoWaitEntry} {id : Nat}

theorem kept_eq_some_iff : entry.kept = some present ↔ entry = present ∧ entry.isEmpty = false := by
  cases empty : entry.isEmpty <;> simp [kept, empty]

theorem exists_mem_kept_iff :
    (∃ present ∈ entry.kept, present.contains id = true) ↔ entry.contains id = true := by
  cases empty : entry.isEmpty with
  | true => simp [kept, empty, not_contains_of_isEmpty empty]
  | false => simp [kept, empty]

end IoWaitEntry

namespace IoWaits

variable {state : IoWaitsState} {fd : Int} {entry : IoWaitEntry} {available : Bool}

/-! ### Interests -/

theorem updateEpollInterest_spec (state : IoWaitsState) (fd : Int) (entry : IoWaitEntry) :
    ∃ epoll succeeded, state.updateEpollInterest fd entry =
        ({ state with epoll := epoll }, succeeded) ∧
      Epoll.Changed state.epoll epoll fd (entry.interest fd) ∧
      (state.epoll.failsNext = [] → succeeded = true) := by
  unfold updateEpollInterest
  cases wants : entry.interest fd with
  | none => exact ⟨_, true, rfl, state.epoll.changed_del fd, fun _ => rfl⟩
  | some interest =>
    exact ⟨_, _, rfl, state.epoll.changed_modOrAdd fd interest,
      Epoll.modOrAdd_succeeds state.epoll fd interest⟩

theorem eraseOrUpdate_spec (state : IoWaitsState) (fd : Int) (entry : IoWaitEntry) :
    ∃ polling epoll, state.eraseOrUpdate fd entry = { state with
          ioWaits := update state.ioWaits fd entry.kept
          polling := polling
          epoll := epoll } ∧
      ((∀ frame ∈ state.polling, frame.fd = fd → entry.isEmpty = false) → polling = state.polling) ∧
      Epoll.Changed state.epoll epoll fd (entry.interest fd) := by
  unfold eraseOrUpdate IoWaitEntry.kept
  by_cases empty : entry.isEmpty = true
  · rw [if_pos empty, if_pos empty, IoWaitEntry.interest_eq_none_iff.mpr empty]
    refine ⟨_, _, rfl, fun steady => ?_, state.epoll.changed_del fd⟩
    cases polls : state.polling with
    | none => simp [eraseEntry, polls]
    | some frame =>
      have away : frame.fd ≠ fd := by
        intro same
        have := steady frame polls same
        simp [empty] at this
      simp [eraseEntry, polls, away]
  · rw [if_neg empty, if_neg empty]
    obtain ⟨epoll, succeeded, updates, changed, -⟩ :=
      updateEpollInterest_spec (state.setEntry fd entry) fd entry
    rw [updates]
    exact ⟨_, epoll, rfl, fun _ => rfl, changed⟩

/-- The iterator of `poll_native_io` stays valid when an entry is looked up or
inserted. -/
def insertsSafely (state : IoWaitsState) (fd : Int) (memory : WaitMemory) : Prop :=
  state.polling = none ∨ (state.ioWaits fd).isSome = true ∨ memory.rehashes = false

theorem enterRegistration_spec (state : IoWaitsState) (registration : IoWaitRegistration)
    (memory : WaitMemory) {entry : IoWaitEntry}
    (found : (state.ioWaits registration.fd).getD .new = entry) :
    ∃ polling, state.enterRegistration registration memory.rehashes = ({ state with
            ioWaits := update state.ioWaits registration.fd
              (some (entry.add registration.events state.ledger.created))
            polling := polling }, entry.add registration.events state.ledger.created) ∧
      (insertsSafely state registration.fd memory → polling = state.polling) := by
  unfold enterRegistration tryEmplace
  cases present : state.ioWaits registration.fd with
  | some entry' =>
    obtain rfl : entry' = entry := by simpa [present] using found
    exact ⟨_, rfl, fun _ => rfl⟩
  | none =>
    obtain rfl : IoWaitEntry.new = entry := by simpa [present] using found
    dsimp only [setEntry]
    rw [update_idem]
    refine ⟨_, rfl, fun steady => ?_⟩
    rcases steady with idle | isSome | kept
    · rw [idle, map_none]
    · simp [present] at isSome
    · cases polls : state.polling <;> simp [kept]

inductive Registers (state : IoWaitsState) (available : Bool) (registration : IoWaitRegistration)
    (memory : WaitMemory) : IoWaitsState × Bool → Prop
  | refused (value : IoResult) : Registers state available registration memory
        (state.setResult registration.result value, false)
  | noMemory (value : IoResult) : Registers state available registration memory
        ({ state.setResult registration.result value with
            registrations :=
              update state.registrations state.ledger.created registration
            ledger := state.ledger.reject }, false)
  | accepted {polling : Option PollFrame} {epoll : Epoll} {entry : IoWaitEntry}
      (valid : state.waitError available registration.fd registration.events = none)
      (found : (state.ioWaits registration.fd).getD .new = entry)
      (steady : insertsSafely state registration.fd memory → polling = state.polling)
      (changed : Epoll.Changed state.epoll epoll registration.fd
        ((entry.add registration.events state.ledger.created).interest registration.fd)) :
      Registers state available registration memory ({ state with
            registrations :=
              update state.registrations state.ledger.created registration
            ioWaits := update state.ioWaits registration.fd
              (some (entry.add registration.events state.ledger.created))
            polling := polling
            epoll := epoll
            results := update state.results registration.result
              ⟨registration.fd, .none, none⟩
            ledger := state.ledger.accept }, true)
  | rolledBack {polling : Option PollFrame} {epoll : Epoll} {entry remaining : IoWaitEntry}
      (value : IoResult)
      (valid : state.waitError available registration.fd registration.events = none)
      (found : (state.ioWaits registration.fd).getD .new = entry)
      (removed : (entry.add registration.events state.ledger.created).remove
        state.ledger.created = remaining) (steady : insertsSafely state registration.fd memory →
        (∀ frame ∈ state.polling, frame.fd = registration.fd → remaining.isEmpty = false) →
          polling = state.polling) (failed : state.epoll.failsNext ≠ [])
      (changed : Epoll.Changed state.epoll epoll registration.fd
        (remaining.interest registration.fd)) : Registers state available registration memory
        ({ state with
            registrations :=
              update state.registrations state.ledger.created registration
            ioWaits := update state.ioWaits registration.fd remaining.kept
            polling := polling
            epoll := epoll
            results := update state.results registration.result value
            ledger := state.ledger.reject }, false)

theorem registers_registerNativeIoWait (state : IoWaitsState) (available : Bool)
    (registration : IoWaitRegistration) (memory : WaitMemory) :
    Registers state available registration memory
      (state.registerNativeIoWait available registration memory) := by
  unfold registerNativeIoWait
  dsimp only
  split
  · exact .refused _
  next valid =>
    split
    · exact .refused _
    · split
      · exact .noMemory _
      · -- The wait is entered into the table; what is left depends on `epoll_ctl`.
        obtain ⟨polling, enters, steadyInsert⟩ :=
          enterRegistration_spec (state.createRegistration registration) registration memory rfl
        rw [enters]
        obtain ⟨epoll, succeeded, updates, changed, carriedOut⟩ := updateEpollInterest_spec
          { state.createRegistration registration with
            ioWaits := _
            polling := polling }
          registration.fd _
        rw [updates]
        cases succeeded with
        | true => exact .accepted valid rfl steadyInsert changed
        | false =>
          rw [if_neg Bool.false_ne_true]
          obtain ⟨after, final, erases, steadyErase, settled⟩ := eraseOrUpdate_spec
            { state.createRegistration registration with
              ioWaits := _
              polling := polling
              epoll := epoll }
            registration.fd _
          rw [erases]
          rw [update_idem]
          refine .rolledBack _ valid rfl rfl (fun safe away => ?_)
            (fun none => absurd (carriedOut none) Bool.false_ne_true)
            (changed.touched.changed settled)
          have same := steadyInsert safe
          exact (steadyErase (same ▸ away)).trans same

/-- What cancelling a wait does up to the enqueueing of its task. -/
inductive Cancels (state : IoWaitsState) (result : ResultId) : IoWaitsState × Bool → Prop
  | refused (value : IoResult) : Cancels state result (state.setResult result value, false)
  | cancelled {fd : Int} {entry : IoWaitEntry} {registration : Nat} {polling : Option PollFrame}
      {epoll : Epoll} {cancelling : List Nat} {ledger : Ledger}
      (own : (state.results result).fd = fd) (present : state.ioWaits fd = some entry)
      (found : entry.find state.registrations result = some registration)
      (steady : (∀ frame ∈ state.polling, frame.fd ≠ fd) → polling = state.polling)
      (changed : Epoll.Changed state.epoll epoll fd ((entry.remove registration).interest fd))
      (ends : cancelling = state.cancelling ∧
          ledger = (state.ledger.cancel registration).destroy registration ∨
        cancelling = registration :: state.cancelling ∧ ledger = state.ledger.cancel registration) :
      Cancels state result ({ state with
            ioWaits := update state.ioWaits fd (entry.remove registration).kept
            polling := polling
            epoll := epoll
            results := update state.results result (setIoResultError fd .canceled)
            cancelling := cancelling
            ledger := ledger }, true)

theorem cancels_cancelNativeIoWait (state : IoWaitsState) (available : Bool) (result : ResultId)
    (runningTask : Option TaskId) :
    Cancels state result (state.cancelNativeIoWait available result runningTask) := by
  unfold cancelNativeIoWait
  dsimp only
  split
  · exact .refused _
  · split
    · exact .refused _
    next entry registration locates =>
      obtain ⟨entry', present, finds⟩ := bind_eq_some_iff.mp locates
      obtain ⟨registration', found, same⟩ := map_eq_some_iff.mp finds
      cases same
      split
      · exact .refused _
      · obtain ⟨polling, epoll, erases, steady, changed⟩ :=
          eraseOrUpdate_spec state (state.results result).fd (entry.remove registration)
        have keeps : (∀ frame ∈ state.polling, frame.fd ≠ (state.results result).fd) →
            polling = state.polling := fun away =>
          steady fun frame polls same => absurd same (away frame polls)
        rw [erases]
        split
        · exact .cancelled rfl present found keeps changed (.inl ⟨rfl, rfl⟩)
        · exact .cancelled rfl present found keeps changed (.inr ⟨rfl, rfl⟩)

theorem complete_eq {frame : PollFrame} (present : state.ioWaits frame.fd = some entry) :
    state.complete frame = { state with
        ioWaits := update state.ioWaits frame.fd (some (entry.remove frame.registration))
        results := update state.results (state.registrations frame.registration).result
          ⟨frame.fd, frame.readyEvents, none⟩
        ledger := state.ledger.complete frame.registration
        polling := some frame } := by
  unfold complete
  rw [present]
  rfl

/-- What the handling of an event does up to the enqueueing of a task. -/
inductive Handles (state : IoWaitsState) : IoWaitsState → Prop
  | other {event : EpollEvent} {batch : List EpollEvent} (taken : state.batch = event :: batch)
      (noWait : ∀ fd, event.token ≠ .wait fd) : Handles state { state with batch := batch }
  | stale {event : EpollEvent} {batch : List EpollEvent} {fd : Int}
      (taken : state.batch = event :: batch) (isWait : event.token = .wait fd)
      (absent : state.ioWaits fd = none) :
      Handles state { state with batch := batch, epoll := state.epoll.del fd }
  | notReady {event : EpollEvent} {batch : List EpollEvent} {fd : Int} {entry : IoWaitEntry}
      {epoll : Epoll} (taken : state.batch = event :: batch) (isWait : event.token = .wait fd)
      (present : state.ioWaits fd = some entry)
      (changed : Epoll.Changed state.epoll epoll fd (entry.interest fd)) :
      Handles state { state with batch := batch, epoll := epoll }
  | completes {event : EpollEvent} {batch : List EpollEvent} {fd : Int} {entry : IoWaitEntry}
      {registration : Nat} {completed : List Nat} (taken : state.batch = event :: batch)
      (isWait : event.token = .wait fd) (present : state.ioWaits fd = some entry)
      (ready : state.collectReady (ioEventsFromNative event.events) entry =
        registration :: completed) : Handles state ({ state with batch := batch }.complete
        ⟨fd, ioEventsFromNative event.events, true, registration, completed⟩)

theorem handles_handleEvent {after : IoWaitsState} (handles : state.handleEvent = some after) :
    Handles state after := by
  unfold handleEvent at handles
  split at handles
  · cases handles
  next event batch taken =>
    dsimp only at handles
    split at handles
    next isWake =>
      cases handles
      exact .other taken (by simp [isWake])
    next channel isChannel =>
      cases handles
      exact .other taken (by simp [isChannel])
    next fd isWait =>
      split at handles
      next absent =>
        cases handles
        exact .stale taken isWait absent
      next entry present =>
        split at handles
        · obtain ⟨epoll, succeeded, updates, changed, -⟩ :=
            updateEpollInterest_spec { state with batch := batch } fd entry
          rw [updates] at handles
          cases handles
          exact .notReady taken isWait present changed
        next registration completed ready =>
          cases handles
          exact .completes taken isWait present ready

inductive Enqueues (state : IoWaitsState) : IoWaitsState → Prop
  | cancelled {registration : Nat} {cancelling : List Nat}
      (calls : state.cancelling = registration :: cancelling) :
      Enqueues state { state.destroy registration with cancelling := cancelling }
  | completes {frame : PollFrame} {registration : Nat} {completed : List Nat}
      (calls : state.cancelling = []) (polls : state.polling = some frame)
      (collected : frame.completed = registration :: completed) :
      Enqueues state ({ state.destroy frame.registration with polling := none }.complete
        { frame with registration := registration, completed := completed })
  | settles {frame : PollFrame} {entry : IoWaitEntry} (calls : state.cancelling = [])
      (polls : state.polling = some frame) (present : state.ioWaits frame.fd = some entry) :
      Enqueues state
        ({ state.destroy frame.registration with polling := none }.eraseOrUpdate frame.fd entry)
  | lost {frame : PollFrame} (calls : state.cancelling = []) (polls : state.polling = some frame)
      (absent : state.ioWaits frame.fd = none) :
      Enqueues state { state.destroy frame.registration with polling := none }

theorem enqueues_enqueued {after : IoWaitsState} (returns : state.enqueued = some after) :
    Enqueues state after := by
  unfold enqueued at returns
  split at returns
  next calls =>
    cases returns
    exact .cancelled calls
  next frame calls polls =>
    cases returns
    unfold continuePoll
    dsimp only
    split
    · next collected => exact .completes calls polls collected
    · split
      · next present => exact .settles calls polls present
      · next absent => exact .lost calls polls absent
  · cases returns

def NoNewWait (before after : Epoll) (fd : Int) : Prop :=
  after.failures = before.failures → after.interests fd = before.interests fd ∨
    ∀ interest ∈ after.interests fd, ∃ channel, interest.token = .channel channel

theorem setChannel_spec (epoll : Epoll) (active : Bool) (fd : Int) {channel : Nat}
    {wanted : EpollInterest} (isChannel : wanted.token = .channel channel) :
    Epoll.Touched epoll (epoll.setChannel active fd wanted).1 fd ∧
      NoNewWait epoll (epoll.setChannel active fd wanted).1 fd := by
  unfold Epoll.setChannel
  cases active with
  | false =>
    have changed := epoll.changed_addOrMod fd wanted
    exact ⟨changed.touched, fun same => .inr (by simp [changed.isSet same, isChannel])⟩
  | true =>
    rw [if_pos rfl]
    cases calls : epoll.ctl fd (.mod wanted) with
    | mk after succeeded =>
      have called := Epoll.called_of_ctl calls
      refine ⟨called.touched, fun same => ?_⟩
      dsimp only at same ⊢
      cases called with
      | failed interests failures => omega
      | done answers interests failures =>
        rw [interests, update_self, Epoll.answer_mod _ _ answers]
        exact .inr (by simp [isChannel])
      | refused answers interests failures => exact .inl (by rw [interests])

theorem updateNetChannelInterest_spec (state : IoWaitsState) (channel : Nat)
    (events : NetInterests) :
    ∃ channels epoll succeeded, state.updateNetChannelInterest channel events =
        ({ state with channels := channels, epoll := epoll }, succeeded) ∧
      Epoll.Touched state.epoll epoll (state.channels channel).fd ∧
      NoNewWait state.epoll epoll (state.channels channel).fd := by
  unfold updateNetChannelInterest
  dsimp only
  split
  · refine ⟨_, _, true, rfl, ?_⟩
    split
    · have changed := state.epoll.changed_del (state.channels channel).fd
      exact ⟨changed.touched, fun same => .inr (by simp [changed.isSet same])⟩
    · exact ⟨⟨fun _ _ => rfl, Nat.le_refl _⟩, fun _ => .inl rfl⟩
  · generalize wants : EpollInterest.mk (.channel channel) events.readable events.writable
      false true = wanted
    have spec := setChannel_spec state.epoll (state.channels channel).active
      (state.channels channel).fd (show wanted.token = .channel channel from wants ▸ rfl)
    generalize state.epoll.setChannel (state.channels channel).active
      (state.channels channel).fd wanted = outcome at spec ⊢
    split
    · exact ⟨_, _, true, rfl, spec⟩
    · exact ⟨state.channels, _, false, rfl, spec⟩

/-- What a call on channels does: it touches one descriptor, which had no wait. -/
inductive ChannelCalls (state : IoWaitsState) : IoWaitsState → Prop
  | refused : ChannelCalls state state
  | touched {fd : Int} {netChannels : Int → Option Nat} {channels : Nat → NetIoChannel}
      {epoll : Epoll} (noWait : state.ioWaits fd = none ∨ (state.netChannels fd).isSome = true)
      (others : ∀ other, other ≠ fd → netChannels other = state.netChannels other)
      (touches : Epoll.Touched state.epoll epoll fd) (noNew : NoNewWait state.epoll epoll fd) :
      ChannelCalls state
        { state with netChannels := netChannels, channels := channels, epoll := epoll }

theorem channelCalls_registerNetChannel (state : IoWaitsState) (available : Bool) (channel : Nat)
    (events : NetInterests) :
    ChannelCalls state (state.registerNetChannel available channel events).1 := by
  unfold registerNetChannel
  dsimp only
  split
  · exact .refused
  next free =>
    have noWait : state.ioWaits (state.channels channel).fd = none := by simp_all
    generalize hfd : (state.channels channel).fd = fd at *
    obtain ⟨channels, epoll, succeeded, updates, touches, noNew⟩ :=
      updateNetChannelInterest_spec { state.setChannel channel ⟨fd, ⟨false, false⟩, false⟩ with
        netChannels := update state.netChannels fd (some channel) } channel events
    have own : (update state.channels channel
        (⟨fd, ⟨false, false⟩, false⟩ : NetIoChannel) channel).fd = fd := by
      rw [update_self]
    rw [updates]
    dsimp only [setChannel] at touches noNew ⊢
    rw [own] at touches noNew
    cases succeeded with
    | true =>
      exact .touched (.inl noWait) (fun other different => by
        rw [update_of_ne different]) touches noNew
    | false =>
      exact .touched (.inl noWait) (fun other different => by
        simp only [update_of_ne different]) touches noNew

theorem channelCalls_updateNetChannel (state : IoWaitsState) (channel : Nat)
    (events : NetInterests) : ChannelCalls state (state.updateNetChannel channel events).1 := by
  unfold updateNetChannel
  dsimp only
  split
  · exact .refused
  next registered =>
    obtain ⟨channels, epoll, succeeded, updates, touches, noNew⟩ :=
      updateNetChannelInterest_spec state channel events
    rw [updates]
    exact .touched (.inr (by simp_all)) (fun _ _ => rfl) touches noNew

theorem channelCalls_unregisterNetChannel (state : IoWaitsState) (channel : Nat) :
    ChannelCalls state (state.unregisterNetChannel channel).1 := by
  unfold unregisterNetChannel
  dsimp only
  split
  · exact .refused
  next registered =>
    obtain ⟨channels, epoll, succeeded, updates, touches, noNew⟩ :=
      updateNetChannelInterest_spec state channel ⟨false, false⟩
    rw [updates]
    exact .touched (.inr (by simp_all)) (fun other different => by
      simp only [update_of_ne different]) touches noNew

end IoWaits

end AsyncFlow
