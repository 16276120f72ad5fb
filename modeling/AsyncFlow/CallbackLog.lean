import AsyncFlow.OpenConnections
import AsyncFlow.ShardCallbacks

/-!
# The callbacks of connections

The callbacks that a shard makes for each connection, recorded next to its steps
under the serial numbers of the connections.
-/

namespace AsyncFlow

open Function List

inductive Callback
  | onAccept
  | onRead
  | onClose
  deriving DecidableEq

namespace Callback

def WellOrdered (log : List Callback) : Prop :=
  ∃ reads, log <+: onAccept :: List.replicate reads onRead ++ [onClose]

def Accepting (log : List Callback) : Prop :=
  ∃ reads, log = onAccept :: List.replicate reads onRead

variable {log : List Callback}

theorem wellOrdered_nil : WellOrdered [] :=
  ⟨0, nil_prefix⟩

theorem accepting_accept : Accepting [onAccept] :=
  ⟨0, rfl⟩

theorem Accepting.read (accepting : Accepting log) : Accepting (log ++ [onRead]) := by
  obtain ⟨reads, rfl⟩ := accepting
  exact ⟨reads + 1, by rw [replicate_succ', cons_append]⟩

theorem Accepting.wellOrdered (accepting : Accepting log) : WellOrdered log := by
  obtain ⟨reads, rfl⟩ := accepting
  exact ⟨reads, prefix_append _ _⟩

theorem Accepting.close (accepting : Accepting log) : WellOrdered (log ++ [onClose]) := by
  obtain ⟨reads, rfl⟩ := accepting
  exact ⟨reads, prefix_rfl⟩

theorem WellOrdered.count_onAccept (ordered : WellOrdered log) (accepted : onAccept ∈ log) :
    log.count onAccept = 1 := by
  obtain ⟨reads, isPrefix⟩ := ordered
  have atMost := isPrefix.sublist.count_le onAccept
  have atLeast := count_pos_iff.mpr accepted
  simp [count_append, count_replicate] at atMost
  omega

end Callback

open Callback (Accepting WellOrdered)

namespace Shard

variable {state after : ShardState} {action : Action} {slots slots' : TableState}
  {stack stack' : List ShardFrame} {log : Nat → List Callback} {ref : ConnectionRef}

def called (state : ShardState) : Action → Option (Nat × Callback)
  | .read =>
    match state.stack with
    | .onEvent ref :: _ => some (ref.serial, .onRead)
    | _ => none
  | .notify =>
    match state.stack with
    | .closeNow ref false :: _ => some (ref.serial, .onClose)
    | _ => none
  | .create true => some (state.slots.nextSerial, .onAccept)
  | _ => none

def record (log : Nat → List Callback) : Option (Nat × Callback) → Nat → List Callback
  | some (serial, callback) => update log serial (log serial ++ [callback])
  | none => log

def openings (slots : TableState) (serial : Nat) : Nat :=
  slots.table.openCount fun connection => connection.serial = serial

/-- No `close_now` is about to call the user. -/
def Quiet (stack : List ShardFrame) : Prop :=
  ∀ ref, ShardFrame.closeNow ref false ∉ stack

structure Logged (slots : TableState) (stack : List ShardFrame) (log : Nat → List Callback) :
    Prop where
  tidy : Table.Tidy slots
  ordered : ∀ serial, WellOrdered (log serial)
  fresh : ∀ serial, slots.nextSerial ≤ serial → log serial = []
  single : ∀ serial, openings slots serial ≤ 1
  accepting : ∀ serial, openings slots serial ≠ 0 → Accepting (log serial)
  closing : ∀ ref, stack.head? = some (.closeNow ref false) →
    openings slots ref.serial = 0 ∧ Accepting (log ref.serial)
  told : Quiet stack.tail

/-! ### Open connections -/

theorem exists_of_isOpen (opened : slots.isOpen ref = true) :
    ∃ connection, slots.table.connections[ref.slot.index]? = some (some connection) ∧
      connection.serial = ref.serial ∧ connection.alive = true := by
  unfold TableState.isOpen at opened
  split at opened
  next connection occupied =>
    simp only [Bool.decide_and, Bool.and_eq_true, decide_eq_true_eq] at opened
    exact ⟨connection, occupied, opened.1, opened.2.2⟩
  · cases opened

theorem openings_ne_zero (opened : slots.isOpen ref = true) : openings slots ref.serial ≠ 0 := by
  obtain ⟨connection, occupied, same, alive⟩ := exists_of_isOpen opened
  have closed := ConnectionTable.openCount_markClosed
    (fun connection => connection.serial = ref.serial) occupied alive
  simp only [same, decide_true, if_true] at closed
  unfold openings
  omega

theorem openings_close (tidy : Table.Tidy slots) (opened : slots.isOpen ref = true)
    (closes : Table.step slots (.close ref.slot.index) = some slots') (serial : Nat) :
    openings slots' serial + (if ref.serial = serial then 1 else 0) = openings slots serial := by
  obtain ⟨connection, occupied, same, -⟩ := exists_of_isOpen opened
  have closed := Table.openCount_of_close tidy.idle occupied closes
    (fun connection => connection.serial = serial)
  simp only [decide_eq_true_eq, same] at closed
  exact closed

theorem openings_fresh (tidy : Table.Tidy slots) {serial : Nat} (later : slots.nextSerial ≤ serial) :
    openings slots serial = 0 := by
  refine ConnectionTable.openCount_eq_zero fun index connection occupied => ?_
  have numbered := Table.serial_lt tidy.inv tidy.numbered occupied
  exact decide_eq_false (by omega)

/-! ### The top of the stack -/

theorem quiet_cons {frame : ShardFrame} (other : ∀ ref, frame ≠ .closeNow ref false)
    (quiet : Quiet stack) : Quiet (frame :: stack) := by
  intro ref inside
  rcases mem_cons.mp inside with same | below
  · exact other ref same.symm
  · exact quiet ref below

theorem Logged.quiet_of_top (logged : Logged slots stack log)
    (other : ∀ frame ∈ stack.head?, ∀ ref, frame ≠ .closeNow ref false) : Quiet stack := by
  cases stack with
  | nil => exact fun ref => not_mem_nil
  | cons frame rest => exact quiet_cons (other frame rfl) logged.told

theorem Logged.quiet_rest (logged : Logged slots stack log) {frame : ShardFrame}
    {rest : List ShardFrame} (top : stack = frame :: rest) : Quiet rest := by
  simpa [top] using logged.told

theorem not_closing_of_user (user : state.runsUserCode = true) :
    ∀ frame ∈ state.stack.head?, ∀ ref, frame ≠ .closeNow ref false := by
  intro frame onTop ref isClosing
  unfold ShardState.runsUserCode at user
  split at user
  · next empty => simp [empty] at onTop
  next top rest nonempty =>
    simp only [nonempty, head?_cons, Option.mem_some_iff] at onTop
    subst onTop
    subst isClosing
    cases user

theorem not_closing_of_mayCall (may : state.mayCall ref = true) :
    ∀ frame ∈ state.stack.head?, ∀ other, frame ≠ .closeNow other false := by
  intro frame onTop other isClosing
  unfold ShardState.mayCall at may
  split at may
  · cases may
  next top rest nonempty =>
    simp only [nonempty, head?_cons, Option.mem_some_iff] at onTop
    subst onTop
    subst isClosing
    simp [ShardFrame.isCallback] at may

section

variable (logged : Logged slots stack log)

include logged

theorem Logged.keep (tidy : Table.Tidy slots') (next : slots'.nextSerial = slots.nextSerial)
    (same : ∀ test, slots'.table.openCount test = slots.table.openCount test)
    (quiet : Quiet stack') : Logged slots' stack' log where
  tidy := tidy
  ordered := logged.ordered
  fresh := fun serial later => logged.fresh serial (next ▸ later)
  single := fun serial => (same _).trans_le (logged.single serial)
  accepting := fun serial opened => logged.accepting serial (by rwa [openings, same] at opened)
  closing := fun ref onTop => absurd (mem_of_mem_head? onTop) (quiet ref)
  told := fun ref inside => quiet ref (mem_of_mem_tail inside)

theorem Logged.restack (quiet : Quiet stack') : Logged slots stack' log :=
  logged.keep logged.tidy rfl (fun _ => rfl) quiet

theorem Logged.append {serial : Nat} {callback : Callback}
    (known : serial < slots.nextSerial) (ordered : WellOrdered (log serial ++ [callback]))
    (accepting : openings slots serial ≠ 0 → Accepting (log serial ++ [callback]))
    (quiet : Quiet stack') : Logged slots stack' (record log (some (serial, callback))) where
  tidy := logged.tidy
  ordered := fun other => by
    by_cases same : other = serial
    · subst same
      rwa [record, update_self]
    · rw [record, update_of_ne same]
      exact logged.ordered other
  fresh := fun other later => by
    have different : other ≠ serial := by omega
    rw [record, update_of_ne different]
    exact logged.fresh other later
  single := logged.single
  accepting := fun other opened => by
    by_cases same : other = serial
    · subst same
      rw [record, update_self]
      exact accepting opened
    · rw [record, update_of_ne same]
      exact logged.accepting other opened
  closing := fun ref onTop => absurd (mem_of_mem_head? onTop) (quiet ref)
  told := fun ref inside => quiet ref (mem_of_mem_tail inside)

theorem Logged.known {serial : Nat}
    (accepting : Accepting (log serial)) : serial < slots.nextSerial := by
  by_contra later
  have fresh := logged.fresh serial (Nat.le_of_not_lt later)
  obtain ⟨reads, isLog⟩ := accepting
  rw [fresh] at isLog
  cases isLog

theorem Logged.close (opened : slots.isOpen ref = true)
    (closes : Table.step slots (.close ref.slot.index) = some slots') (quiet : Quiet stack) :
    Logged slots' (.closeNow ref false :: stack) log := by
  have counted := openings_close logged.tidy opened closes
  have next : slots'.nextSerial = slots.nextSerial := by
    rw [Table.step, logged.tidy.idle] at closes
    obtain ⟨connection, occupied, -, alive⟩ := exists_of_isOpen opened
    simp only [Table.stepIdle, occupied, alive, if_true, Option.some.injEq] at closes
    rw [← closes]
  have shrinks : ∀ serial, openings slots' serial ≤ openings slots serial := fun serial => by
    have same := counted serial
    omega
  exact {
    tidy := logged.tidy.step closes (by simp)
    ordered := logged.ordered
    fresh := fun serial later => logged.fresh serial (next ▸ later)
    single := fun serial => (shrinks serial).trans (logged.single serial)
    accepting := fun serial isOpen => logged.accepting serial (by
      have less := shrinks serial
      omega)
    closing := fun other onTop => by
      cases onTop
      have same := counted ref.serial
      have one := logged.single ref.serial
      rw [if_pos rfl] at same
      exact ⟨by omega, logged.accepting _ (openings_ne_zero opened)⟩
    told := quiet }

theorem Logged.create {slot : ConnectionSlot}
    (stores : Table.StoresOne slots slot slots') (quiet : Quiet stack') :
    Logged slots' stack' (record log (some (slots.nextSerial, .onAccept))) := by
  have counted : ∀ serial, openings slots' serial =
      openings slots serial + if slots.nextSerial = serial then 1 else 0 := fun serial => by
    have stored := stores.counted fun connection => connection.serial = serial
    simp only [decide_eq_true_eq] at stored
    exact stored
  have logs : ∀ serial, record log (some (slots.nextSerial, .onAccept)) serial =
      if serial = slots.nextSerial then [.onAccept] else log serial := fun serial => by
    simp only [record, update_apply, logged.fresh _ le_rfl, nil_append]
  exact {
    tidy := stores.tidy
    ordered := fun serial => by
      rw [logs]
      split
      · exact Callback.accepting_accept.wellOrdered
      · exact logged.ordered serial
    fresh := fun serial later => by
      rw [stores.next] at later
      rw [logs, if_neg (by omega)]
      exact logged.fresh serial (by omega)
    single := fun serial => by
      have one := logged.single serial
      rw [counted]
      split
      · next same => rw [← same, openings_fresh logged.tidy le_rfl]
      · exact one
    accepting := fun serial isOpen => by
      rw [logs]
      split
      · exact Callback.accepting_accept
      next different =>
        rw [counted, if_neg (Ne.symm different)] at isOpen
        exact logged.accepting serial isOpen
    closing := fun ref onTop => absurd (mem_of_mem_head? onTop) (quiet ref)
    told := fun ref inside => quiet ref (mem_of_mem_tail inside) }

end

theorem Logged.step (logged : Logged state.slots state.stack log) (steps : Steps state action after)
    (registers : action ≠ .create false) :
    Logged after.slots after.stack (record log (called state action)) := by
  have recycled : ∀ {slots : TableState} {call : Table.Action} {stack : List ShardFrame},
      Table.step state.slots call = some slots → (call = .reap ∨ ∃ slot, call = .retire slot) →
        Quiet stack → Logged slots stack log := by
    intro slots call stack moves recycles quiet
    refine logged.keep (logged.tidy.step moves ?_) ?_
      (Table.openCount_of_step logged.tidy.idle moves recycles) quiet
    · rcases recycles with rfl | ⟨slot, rfl⟩ <;> simp
    · exact Table.nextSerial_of_recycle logged.tidy.idle moves recycles
  cases steps with
  | fetch => exact logged.restack (by simp_all [Quiet])
  | deliver idle => exact logged.restack (quiet_cons (by simp) (by simp [idle, Quiet]))
  | skip idle => exact logged.restack (by simp [idle, Quiet])
  | @read ref rest top opened =>
    have accepting := logged.accepting _ (openings_ne_zero opened)
    have quiet : Quiet state.stack := logged.quiet_of_top (by simp [top])
    simp only [called, top]
    exact logged.append (logged.known accepting) accepting.read.wellOrdered
      (fun _ => accepting.read) (quiet_cons (by simp) quiet)
  | @close ref frame rest slots top own opened closes =>
    have notClosing : ∀ ref, frame ≠ .closeNow ref false := by
      rintro other rfl
      cases own
      exact openings_ne_zero opened (logged.closing ref (by rw [top]; rfl)).1
    exact logged.close opened closes (logged.quiet_of_top (by simpa [top] using notClosing))
  | @notify ref rest top =>
    obtain ⟨closed, accepting⟩ := logged.closing ref (by rw [top]; rfl)
    simp only [called, top]
    exact logged.append (logged.known accepting) accepting.close (fun isOpen => absurd closed isOpen)
      (quiet_cons (by simp) (quiet_cons (by simp) (logged.quiet_rest top)))
  | @reap frame rest slots top _ moves =>
    exact recycled moves (.inl rfl) (logged.quiet_rest top)
  | leave top | endCallback top => exact logged.restack (logged.quiet_rest top)
  | @retire ref told rest slots top retires =>
    exact recycled retires (.inr ⟨_, rfl⟩) (logged.quiet_rest top)
  | enter may =>
    exact logged.restack (quiet_cons (by simp) (logged.quiet_of_top (not_closing_of_mayCall may)))
  | handle user | sweep user =>
    exact logged.restack (quiet_cons (by simp) (logged.quiet_of_top (not_closing_of_user user)))
  | @create starts acquiring slots slot user acquires acquired creates =>
    have stores := Table.storesOne_of_steps logged.tidy acquires acquired creates
    have quiet := logged.quiet_of_top (not_closing_of_user user)
    cases starts with
    | false => exact absurd rfl registers
    | true => exact logged.create stores (quiet_cons (by simp) (quiet_cons (by simp) quiet))
  | @createFails acquiring slots user acquires fails =>
    obtain ⟨tidy, same⟩ := Table.tidy_of_createFails logged.tidy acquires fails
    exact logged.keep tidy (Table.nextSerial_of_createFails logged.tidy.idle acquires fails) same
      (logged.quiet_of_top (not_closing_of_user user))

end Shard

end AsyncFlow
