import AsyncFlow.ConnectOperations

/-!
# The waits that a connecting task owns

Until a connecting task is done it knows every registration that refers to it.
Others, and the cancel from `TcpClient::stop`, wake the task only when it loses a
wait.
-/

namespace AsyncFlow

namespace TcpConnect

open IoWaits

variable {after : IoWaitsState} {state : TcpConnectState} {available : Bool}
  {events : IoEvents} {result : ResultId} {fd id : Nat}

/-! ### Waking the task -/

theorem WaitsFor.hasWait {waits : IoWaitsState}
    (waitsFor : WaitsFor available waits fd events result id)
    (inv : Inv waits) (inside : InTable waits.ioWaits id) : waits.hasWait fd result = true := by
  obtain ⟨entry, present, contains, -⟩ := waitsFor.entry inv inside
  have found := IoWaitEntry.find_isSome_of_contains waits.registrations contains
  rw [waitsFor.registration] at found
  simpa [IoWaitsState.hasWait, present] using found

theorem exists_of_hasWait {waits : IoWaitsState} (has : waits.hasWait fd result = true) :
    ∃ id, InTable waits.ioWaits id ∧ (waits.registrations id).result = result := by
  unfold IoWaitsState.hasWait at has
  cases present : waits.ioWaits fd with
  | none => simp [present] at has
  | some entry =>
    rw [present, Option.any_some] at has
    obtain ⟨id, found⟩ := Option.isSome_iff_exists.mp has
    exact ⟨id, inTable_of_contains present (IoWaitEntry.contains_of_find found),
      IoWaitEntry.result_of_find found⟩

structure Live (available : Bool) (state : TcpConnectState) : Prop where
  known : ∀ id, Referred state.waits id →
    ConnectWait available state id ∨ DeadlineWait available state id
  uncancelled : state.task.deadline.waiting = true → (state.waits.results deadlineWait).error = none
  /-- A task that was woken without a deadline has no wait. -/
  woken : state.task.queued = true → ∀ id, Referred state.waits id →
    state.task.deadline.armed = true
  unprepared : state.task.prepared = false →
    state.task.deadline.armed = false ∧ state.task.deadline.waiting = false

structure Owned (available : Bool) (state : TcpConnectState) : Prop where
  inv : Inv state.waits
  frames : FramesReady state.waits
  live : state.task.done = false → Live available state
  finished : state.task.done = true → state.task.active = false ∧ ∀ id, ¬ Referred state.waits id

theorem ByOthers.result_eq {before : IoWaitsState} (others : ByOthers before after)
    (inv : Inv before) (isOwn : ownResult result) (referred : Referred after id)
    (own : ∀ id, Referred before id → (before.registrations id).result = result →
      ∃ fd, WaitsFor available before fd events result id)
    (isResult : (before.registrations id).result = result) :
    after.results result = before.results result := by
  rcases others.results result isOwn with same | ⟨-, gone, referredGone, left, sameResult⟩
  · exact same
  · obtain ⟨_, one⟩ := own id (others.referred id referred).1 isResult
    obtain ⟨_, two⟩ := own gone referredGone sameResult
    obtain rfl := one.unique inv (others.referred id referred).1.1 two referredGone.1
    exact absurd referred left

section

variable (live : Live available state)

include live

theorem Live.connectWaits (id : Nat) (referred : Referred state.waits id)
    (isConnect : (state.waits.registrations id).result = connectState) :
    ∃ fd, WaitsFor available state.waits fd ⟨false, true, false, false⟩ connectState id := by
  obtain ⟨-, fd, -, waitsFor⟩ := connectWait_of_result (live.known id referred) isConnect
  exact ⟨fd, waitsFor⟩

theorem Live.deadlineWaits (id : Nat) (referred : Referred state.waits id)
    (isDeadline : (state.waits.registrations id).result = deadlineWait) :
    ∃ fd, WaitsFor available state.waits fd ⟨true, false, false, false⟩ deadlineWait id := by
  obtain ⟨-, timer, -, waitsFor⟩ :=
    deadlineWait_of_result (live.known id referred) (isDeadline.trans_ne (by decide))
  exact ⟨timer, waitsFor⟩

/-! ### Steps of others -/

theorem Live.others_known (inv : Inv state.waits)
    (others : ByOthers state.waits after) (id : Nat) (referred : Referred after id) :
    ConnectWait available (state.withWaits after) id ∨
      DeadlineWait available (state.withWaits after) id := by
  obtain ⟨before, registration⟩ := others.referred id referred
  rcases live.known id before with connects | waits
  · exact .inl (connects.frame rfl rfl registration
      (others.result_eq inv (.inl rfl) referred live.connectWaits connects.notReady.1))
  · exact .inr (waits.frame rfl registration
      (others.result_eq inv (.inr rfl) referred live.deadlineWaits waits.notReady.1))

theorem Live.woken_of_wake {next : TcpConnectState}
    (inv : Inv next.waits) (queued : next.task.queued = state.task.queued)
    (fd : ∀ fd, next.task.fd = some fd → state.task.fd = some fd)
    (deadline : next.task.deadline = state.task.deadline)
    (fewer : ∀ id, Referred next.waits id → Referred state.waits id)
    (known : ∀ id, Referred next.waits id →
      ConnectWait available next id ∨ DeadlineWait available next id)
    (woken : (state.wake next).task.queued = true) (id : Nat) (referred : Referred next.waits id) :
    next.task.deadline.armed = true := by
  simp only [TcpConnectState.wake, Bool.or_eq_true, Option.any_eq_true, Bool.and_eq_true,
    Bool.not_eq_true'] at woken
  rcases woken with (before | ⟨own, isFd, -, lost⟩) | ⟨timer, isTimer, had, -⟩
  · exact deadline ▸ live.woken (queued ▸ before) id (fewer id referred)
  · rcases known id referred with ⟨-, other, isOther, waitsFor⟩ | waits
    · obtain rfl := Option.some.inj (isFd.symm.trans (fd other isOther))
      exact absurd (waitsFor.hasWait inv referred.1) (Bool.eq_false_iff.mp lost)
    · exact waits.1.2
  · obtain ⟨other, inside, isDeadline⟩ := exists_of_hasWait had
    have before := live.known other ⟨inside, .inr (.inr isDeadline)⟩
    exact deadline ▸ (deadlineWait_of_result before (isDeadline.trans_ne (by decide))).1.2

theorem Live.others (inv : Inv state.waits)
    (invAfter : Inv after) (others : ByOthers state.waits after) :
    Live available (state.wake (state.withWaits after)) where
  known := live.others_known inv others
  uncancelled := fun isWaiting => by
    rcases others.results deadlineWait (.inr rfl) with same | ⟨uncancelled, -⟩
    · exact (congrArg IoResult.error same).trans (live.uncancelled isWaiting)
    · exact uncancelled
  woken := live.woken_of_wake invAfter rfl (fun _ => id) rfl
    (fun id referred => (others.referred id referred).1) (live.others_known inv others)
  unprepared := live.unprepared

end

theorem Owned.others {action : IoWaits.Action} (owned : Owned available state)
    (permitted : undisturbed state.waits action) (isOther : byOthers state action = true)
    (steps : IoWaits.step available state.waits action = some after) :
    Owned available (state.wake (state.withWaits after)) := by
  have invAfter := inv_of_step owned.inv (reentrySafe_of_undisturbed permitted) steps
  have results : ∀ id, Referred state.waits id →
      ownResult (state.waits.registrations id).result := by
    intro id referred
    cases done : state.task.done with
    | false =>
      rcases (owned.live done).known id referred with connects | waits
      · exact .inl connects.notReady.1
      · exact .inr waits.notReady.1
    | true => exact absurd referred ((owned.finished done).2 id)
  obtain ⟨others, frames⟩ := byOthers_of_step owned.inv owned.frames results isOther permitted steps
  refine ⟨invAfter, frames, fun live => (owned.live live).others owned.inv invAfter others,
    fun done => ⟨(owned.finished done).1, fun id referred => ?_⟩⟩
  exact (owned.finished done).2 id (others.referred id referred).1

theorem closeFd_eq (state : TcpConnectState) : ∃ epoll closes,
    state.closeFd = ⟨{ state.waits with epoll := epoll },
      { state.task with fd := none, closes := closes }⟩ := by
  unfold TcpConnectState.closeFd
  split
  · next closed => exact ⟨state.waits.epoll, state.task.closes, by rw [← closed]⟩
  · exact ⟨_, _, rfl⟩

/-- What `request_cancel_on_owner` does: the wait for the socket is gone, and so
is the socket. -/
inductive RequestsCancel (available : Bool) (state : TcpConnectState) : TcpConnectState → Prop
  | inactive (idle : state.task.active = false) : RequestsCancel available state
        { state with task := { state.task with cancelRequested := true } }
  | closed {after : IoWaitsState} {closes : Nat} (active : state.task.active = true)
      (inv : Inv after) (rest : after.polling = none)
      (results : after.results deadlineWait = state.waits.results deadlineWait)
      (referred : ∀ id, Referred after id → Referred state.waits id ∧
        after.registrations id = state.waits.registrations id ∧
        DeadlineWait available state id) :
      RequestsCancel available state
        { waits := after
          task := { state.task with cancelRequested := true, fd := none, closes := closes } }

theorem requestsCancel_requestCancelOnOwner (waiting : Waiting available state) :
    RequestsCancel available state (state.requestCancelOnOwner available) := by
  unfold TcpConnectState.requestCancelOnOwner
  dsimp only
  split
  · next idle => exact .inactive (by simpa using idle)
  next active =>
    have isActive : state.task.active = true := by simpa using active
    split
    next isWaiting =>
      have cancels := (waiting.cancel none).1
      rw [isWaiting] at cancels
      obtain ⟨epoll, closes, closed⟩ := closeFd_eq
        (TcpConnectState.withWaits ⟨state.waits, { state.task with cancelRequested := true }⟩
          (state.waits.cancelIo available true connectState none).1)
      rw [closed]
      refine .closed isActive ⟨⟨cancels.inv.sound.entries, cancels.inv.sound.balanced⟩,
        cancels.inv.frames⟩ cancels.rest (cancels.results _ (by decide)) fun id referred => ?_
      obtain ⟨before, isDeadline⟩ := cancels.referred id referred
      exact ⟨before, congrFun cancels.registrations id,
        deadlineWait_of_result (waiting.known id before) isDeadline⟩
    next idle =>
      obtain ⟨epoll, closes, closed⟩ := closeFd_eq
        ⟨state.waits, { state.task with cancelRequested := true }⟩
      rw [closed]
      refine .closed isActive ⟨⟨waiting.inv.sound.entries, waiting.inv.sound.balanced⟩,
        waiting.inv.frames⟩ waiting.rest rfl fun id referred => ⟨referred, rfl, ?_⟩
      rcases waiting.known id referred with connects | waits
      · exact absurd connects.1 idle
      · exact waits

theorem Live.waiting (live : Live available state) (inv : Inv state.waits)
    (rest : state.waits.polling = none) : Waiting available state :=
  ⟨inv, rest, live.known, live.uncancelled⟩

theorem Live.cancel (live : Live available state) (inv : Inv state.waits)
    (rest : state.waits.polling = none) :
    Live available (state.wake (state.requestCancelOnOwner available)) ∧
      Inv (state.requestCancelOnOwner available).waits ∧
      (state.requestCancelOnOwner available).waits.polling = none ∧
      (state.requestCancelOnOwner available).task.done = state.task.done := by
  have requests := requestsCancel_requestCancelOnOwner (live.waiting inv rest)
  generalize state.requestCancelOnOwner available = next at requests
  cases requests with
  | inactive idle =>
    have known : ∀ id, Referred state.waits id → ConnectWait available
        { state with task := { state.task with cancelRequested := true } } id ∨ DeadlineWait
        available { state with task := { state.task with cancelRequested := true } } id :=
      fun id referred => (live.known id referred).imp (·.frame rfl rfl rfl rfl)
        (·.frame rfl rfl rfl)
    exact ⟨⟨known, live.uncancelled, live.woken_of_wake inv rfl (fun _ => id) rfl
      (fun _ => id) known, live.unprepared⟩, inv, rest, rfl⟩
  | @closed after closes active invAfter restAfter results referred =>
    have armed : ∀ id, Referred after id → state.task.deadline.armed = true :=
      fun id inside => (referred id inside).2.2.1.2
    exact ⟨⟨fun id inside => .inr ((referred id inside).2.2.frame rfl (referred id inside).2.1
        results),
      fun isWaiting => (congrArg IoResult.error results).trans (live.uncancelled isWaiting),
      fun _ => armed, live.unprepared⟩, invAfter, restAfter, rfl⟩

theorem Owned.cancel (owned : Owned available state) (rest : state.waits.polling = none)
    (fails : List (Option Errno)) :
    Owned available (state.wake
      ((state.withWaits (withFails state.waits fails)).requestCancelOnOwner available)) := by
  have inv : Inv (withFails state.waits fails) :=
    ⟨⟨owned.inv.sound.entries, owned.inv.sound.balanced⟩, owned.inv.frames⟩
  cases done : state.task.done with
  | true =>
    obtain ⟨idle, unreferred⟩ := owned.finished done
    have same : (state.withWaits (withFails state.waits fails)).requestCancelOnOwner available =
        ⟨withFails state.waits fails, { state.task with cancelRequested := true }⟩ := by
      simp [TcpConnectState.requestCancelOnOwner, TcpConnectState.withWaits, idle]
    rw [same]
    exact ⟨inv, framesReady_of_rest rest, fun isLive => (by cases done.symm.trans isLive),
      fun _ => ⟨idle, unreferred⟩⟩
  | false =>
    have live := owned.live done
    have starts : Live available (state.withWaits (withFails state.waits fails)) :=
      { live with known := fun id referred =>
        (live.known id referred).imp (·.frame rfl rfl rfl rfl) (·.frame rfl rfl rfl) }
    obtain ⟨liveAfter, invAfter, restAfter, doneAfter⟩ := starts.cancel inv rest
    exact ⟨invAfter, framesReady_of_rest restAfter, fun _ => liveAfter,
      fun isDone => by cases done.symm.trans (doneAfter.symm.trans isDone)⟩

end TcpConnect

end AsyncFlow
