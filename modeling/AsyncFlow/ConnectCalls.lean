import AsyncFlow.ConnectWaits

/-!
# Waits that a connecting task arms and cancels

What `arm_io_wait` and `cancel_io` do to the registrations that refer to the
task: one more after a success, and none for a result that was cancelled.
-/

namespace AsyncFlow

open Function Option

namespace TcpConnect

open IoWaits

variable {waits after : IoWaitsState} {available waiting : Bool} {events : IoEvents}
  {result : ResultId} {fd id : Nat}

/-! ### One wait -/

/-- A registration of the task whose result is not written yet. -/
structure WaitsFor (available : Bool) (waits : IoWaitsState) (fd : Nat) (events : IoEvents)
    (result : ResultId) (id : Nat) : Prop where
  available : available = true
  registration : waits.registrations id = ⟨fd, events, connectTask, result⟩
  result : waits.results result = ⟨fd, .none, none⟩

theorem WaitsFor.entry (waitsFor : WaitsFor available waits fd events result id) (inv : Inv waits)
    (inside : InTable waits.ioWaits id) :
    ∃ entry, waits.ioWaits fd = some entry ∧ entry.contains id = true ∧
      (entry.read = some id ↔ events.readable = true) ∧
      (entry.write = some id ↔ events.writable = true) := by
  obtain ⟨key, entry, present, contains⟩ := inside
  obtain ⟨own, read, write⟩ := (inv.sound.entries key entry present).fits id contains
  rw [waitsFor.registration] at own read write
  subst own
  exact ⟨entry, present, contains, read, write⟩

theorem WaitsFor.unique {fd' other : Nat} (inv : Inv waits)
    (one : WaitsFor available waits fd events result id) (inside : InTable waits.ioWaits id)
    (two : WaitsFor available waits fd' events result other)
    (inside' : InTable waits.ioWaits other) : id = other := by
  obtain rfl : fd = fd' := by
    have same := one.result.symm.trans two.result
    simp only [IoResult.mk.injEq, and_true] at same
    omega
  obtain ⟨entry, present, contains, read, write⟩ := one.entry inv inside
  obtain ⟨entry', present', contains', read', write'⟩ := two.entry inv inside'
  cases present.symm.trans present'
  rw [IoWaitEntry.contains_iff] at contains
  rcases contains with isRead | isWrite
  · exact Option.some.inj (isRead.symm.trans (read'.mpr (read.mp isRead)))
  · exact Option.some.inj (isWrite.symm.trans (write'.mpr (write.mp isWrite)))

theorem WaitsFor.cancel (waitsFor : WaitsFor available waits fd events result id)
    (inv : Inv waits) (inside : InTable waits.ioWaits id) (runningTask : Option TaskId) :
    (waits.cancelNativeIoWait available result runningTask).2 = true := by
  obtain ⟨entry, present, contains, -⟩ := waitsFor.entry inv inside
  have found := IoWaitEntry.find_isSome_of_contains waits.registrations contains
  rw [waitsFor.registration, isSome_iff_exists] at found
  obtain ⟨removed, found⟩ := found
  unfold IoWaitsState.cancelNativeIoWait
  simp only [waitsFor.available, waitsFor.result, present, bind_some, found, map_some]
  rw [if_neg (by simp), if_neg (by omega)]
  split <;> rfl

/-! ### Calls of the task -/

structure Arms (available : Bool) (waits after : IoWaitsState) (events : IoEvents)
    (result : ResultId) (fd : Option Nat) (error : Option Errno) : Prop where
  inv : Inv after
  rest : after.polling = none
  results : ∀ other, other ≠ result → after.results other = waits.results other
  registrations : ∀ id, InTable waits.ioWaits id → after.registrations id = waits.registrations id
  failed : ∀ {errno}, error = some errno → after.ioWaits = waits.ioWaits
  armed : error = none → ∃ own new, fd = some own ∧ WaitsFor available after own events result new ∧
      ∀ id, InTable after.ioWaits id ↔ InTable waits.ioWaits id ∨ id = new

theorem arms_armIoWait (available : Bool) (inv : Inv waits) (rest : waits.polling = none)
    (fd : Option Nat) (events : IoEvents) (result : ResultId) (memory : WaitMemory) :
    Arms available waits (waits.armIoWait available fd events result memory).1 events result fd
      (waits.armIoWait available fd events result memory).2 := by
  unfold IoWaitsState.armIoWait
  cases fd with
  | none =>
    exact ⟨⟨⟨inv.sound.entries, inv.sound.balanced⟩, inv.frames⟩, rest,
      fun other different => update_of_ne different _ _, fun _ _ => rfl,
      fun _ => rfl, fun success => by cases success⟩
  | some own =>
    dsimp only
    have ready : Inv (waits.setResult result ⟨own, .none, none⟩) :=
      ⟨⟨inv.sound.entries, inv.sound.balanced⟩, inv.frames⟩
    have registers := registers_registerNativeIoWait
      (waits.setResult result ⟨own, .none, none⟩) available
      ⟨own, events, connectTask, result⟩ memory
    generalize (waits.setResult result ⟨own, .none, none⟩).registerNativeIoWait available
      ⟨own, events, connectTask, result⟩ memory = outcome at registers ⊢
    obtain ⟨registrations, results, refused, accepted⟩ := registers_frame ready rest registers
    have invAfter := ready.register registers (.inl rest) fun frame polls => by
      cases rest.symm.trans polls
    have restAfter := polling_of_registers registers rest
    have others : ∀ other, other ≠ result →
        outcome.1.results other = waits.results other := fun other different =>
      (results other different).trans (update_of_ne different _ _)
    cases answer : outcome.2 with
    | false =>
      exact ⟨invAfter, restAfter, others, registrations, fun _ => refused answer,
        fun success => by cases success⟩
    | true =>
      obtain ⟨isAvailable, created, written, table⟩ := accepted answer
      exact ⟨invAfter, restAfter, others, registrations, (fun failure => by cases failure),
        fun _ => ⟨own, _, rfl, ⟨isAvailable, created, written⟩, table⟩⟩

structure CancelsOwn (waits after : IoWaitsState) (result : ResultId) : Prop where
  inv : Inv after
  rest : after.polling = none
  results : ∀ other, other ≠ result → after.results other = waits.results other
  registrations : after.registrations = waits.registrations
  referred : ∀ id, Referred after id → Referred waits id ∧ (waits.registrations id).result ≠ result

theorem cancelsOwn_cancelIo (inv : Inv waits) (rest : waits.polling = none)
    (runningTask : Option TaskId) (isOwn : ownResult result) (events : IoEvents)
    (own : ∀ id, Referred waits id → (waits.registrations id).result = result →
      waiting = true ∧ ∃ fd, WaitsFor available waits fd events result id) :
    CancelsOwn waits (waits.cancelIo available waiting result runningTask).1 result := by
  unfold IoWaitsState.cancelIo
  split
  next cancelled =>
    refine ⟨inv, rest, fun _ _ => rfl, rfl, fun id referred => ⟨referred, fun same => ?_⟩⟩
    obtain ⟨-, fd, waitsFor⟩ := own id referred same
    simp [waitsFor.result] at cancelled
  · split
    next idle =>
      refine ⟨⟨⟨inv.sound.entries, inv.sound.balanced⟩, inv.frames⟩, rest,
        fun other different => update_of_ne different _ _, rfl,
        fun id referred => ⟨referred, fun same => ?_⟩⟩
      simp [(own id referred same).1] at idle
    · have cancels := cancels_cancelNativeIoWait waits available result runningTask
      have succeeds := fun id (waitsFor : ∃ fd, WaitsFor available waits fd events result id)
          (inside : InTable waits.ioWaits id) =>
        waitsFor.elim fun _ waitsFor => waitsFor.cancel inv inside runningTask
      have invAfter := inv.cancel cancels (by simp [rest])
      have restAfter := polling_of_cancels cancels rest
      generalize waits.cancelNativeIoWait available result runningTask = outcome at *
      cases cancels with
      | refused =>
        refine ⟨invAfter, restAfter, fun other different => update_of_ne different _ _,
          rfl, fun id referred => ⟨referred, fun same => ?_⟩⟩
        cases succeeds id (own id referred same).2 referred.1
      | @cancelled fd entry removed polling epoll cancelling ledger isFd present found =>
        have contains := IoWaitEntry.contains_of_find found
        have table : ∀ id, InTable (update waits.ioWaits fd
            (entry.remove removed).kept) id ↔ InTable waits.ioWaits id ∧ id ≠ removed :=
          inTable_remove_of_sound inv.sound _ present contains
            fun id => IoWaitEntry.exists_mem_kept_iff
        refine ⟨invAfter, restAfter, fun other different => update_of_ne different _ _,
          rfl, fun id referred => ?_⟩
        obtain ⟨inside, different⟩ := (table id).mp referred.1
        refine ⟨⟨inside, referred.2⟩, fun same => different ?_⟩
        -- The removed registration has the same result, and a result has one registration.
        have isResult := IoWaitEntry.result_of_find found
        have insideRemoved := inTable_of_contains present contains
        obtain ⟨-, fd, one⟩ := own id ⟨inside, referred.2⟩ same
        obtain ⟨-, fd', two⟩ := own removed ⟨insideRemoved, .inr (isResult ▸ isOwn)⟩ isResult
        exact one.unique inv inside two insideRemoved

end TcpConnect

end AsyncFlow
