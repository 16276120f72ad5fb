import AsyncFlow.EventBatch

/-!
# Connections and the functions in progress

`create_connection`, `remove_listener_on_owner` and `stop_on_owner` reap closed
connections without a look at the callbacks in progress; when a full queue makes
them run inside a callback, they destroy connections whose functions are still on
the stack.  Where they run outside of callbacks only, no connection is destroyed
before its functions have returned.
-/

namespace AsyncFlow

open List

namespace Shard

variable {state after : ShardState} {action : Action} {ref : ConnectionRef}
  {frame : ShardFrame} {stack rest : List ShardFrame}

/-- `create_connection`, `remove_listener_on_owner`, `stop_on_owner` and the
draining of commands run outside of callbacks. -/
def reapsOutside (state : ShardState) (action : Action) : Prop :=
  match action with
  | .sweep | .create _ => state.userCallbackDepth = 0
  | _ => True

instance (state : ShardState) (action : Action) : Decidable (reapsOutside state action) :=
  match action with
  | .sweep | .create _ => inferInstanceAs (Decidable (_ = _))
  | .fetch _ | .deliver _ | .read | .close | .notify | .leave | .enter _ | .handle
  | .createFails => inferInstanceAs (Decidable True)

/-- Functions that reap stand at the bottom of the stack, or on a callback when
they look at the depth of callbacks. -/
def WellStacked : List ShardFrame → Prop
  | [] => True
  | frame :: rest => WellStacked rest ∧ match frame with
      | .onEvent _ | .reaping => rest = []
      | .reapingIfSafe => ∀ below ∈ rest.head?, below.isCallback
      | _ => True

theorem eq_nil_of_user (user : ∀ top ∈ stack.head?, top.isCallback)
    (outside : stack.countP ShardFrame.isCallback = 0) : stack = [] := by
  cases stack with
  | nil => rfl
  | cons top rest => simp [user top rfl] at outside

theorem user_of_runsUserCode (user : state.runsUserCode) :
    ∀ top ∈ state.stack.head?, top.isCallback := by
  unfold ShardState.runsUserCode at user
  split at user <;> simp_all

structure Nested (slots : TableState) (depth : Nat) (stack : List ShardFrame) : Prop where
  stacked : WellStacked stack
  counted : depth = stack.countP ShardFrame.isCallback
  held : ∀ frame ∈ stack, ∀ ref, frame.connection = some ref → slots.holds ref

namespace Nested

variable {slots slots' : TableState} {depth : Nat}

theorem mono (nested : Nested slots depth stack)
    (keeps : ∀ ref, slots.holds ref → slots'.holds ref) : Nested slots' depth stack :=
  ⟨nested.stacked, nested.counted,
    fun frame inside ref own => keeps ref (nested.held frame inside ref own)⟩

section

variable (nested : Nested slots depth (frame :: rest))

include nested

theorem reap_bottom (reaps : (∃ ref, frame = .onEvent ref) ∨ frame = .reaping ∨
      frame = .reapingIfSafe ∧ depth = 0) : rest = [] := by
  rcases reaps with ⟨ref, rfl⟩ | rfl | ⟨rfl, outside⟩
  · exact nested.stacked.2
  · exact nested.stacked.2
  · refine eq_nil_of_user nested.stacked.2 ?_
    have counted := nested.counted
    rw [countP_cons_of_neg (by simp [ShardFrame.isCallback])] at counted
    omega

theorem pop (plain : frame.isCallback = false) : Nested slots depth rest where
  stacked := nested.stacked.1
  counted := by
    rw [nested.counted, countP_cons_of_neg (by simp [plain])]
  held := fun other inside => nested.held other (mem_cons_of_mem _ inside)

theorem popCallback (callback : frame.isCallback) : Nested slots (depth - 1) rest where
  stacked := nested.stacked.1
  counted := by
    rw [nested.counted, countP_cons_of_pos callback]
    rfl
  held := fun other inside => nested.held other (mem_cons_of_mem _ inside)

end

theorem push (nested : Nested slots depth stack) (frame : ShardFrame)
    (fits : WellStacked (frame :: stack)) {deeper : Nat}
    (counted : deeper = depth + if frame.isCallback then 1 else 0)
    (own : ∀ ref, frame.connection = some ref → slots.holds ref) :
    Nested slots deeper (frame :: stack) where
  stacked := fits
  counted := by
    rw [counted, nested.counted, countP_cons]
  held := fun other inside => (mem_cons.mp inside).elim (fun same => same ▸ own) (nested.held other)

end Nested

theorem holds_created {slots acquiring created : TableState} {slot : ConnectionSlot}
    (inv : Table.Inv slots) (idle : slots.acquired = none)
    (acquires : Table.step slots .acquire = some acquiring)
    (acquired : acquiring.acquired = some slot)
    (creates : Table.step acquiring .create = some created) :
    created.holds ⟨slots.nextSerial, slot⟩ := by
  have serial : acquiring.nextSerial = slots.nextSerial := by
    simp only [Table.step, idle, Table.stepIdle, Option.some.injEq] at acquires
    exact acquires ▸ rfl
  obtain ⟨empty, -, -⟩ := (Table.inv_of_step inv acquires).vacant slot acquired
  simp only [Table.step, acquired, Table.stepAcquired, Option.some.injEq] at creates
  subst creates
  refine Table.holds_iff.mpr ⟨⟨acquiring.nextSerial, slot.generation, true⟩, ?_, serial, rfl⟩
  exact List.getElem?_set_self (List.getElem?_eq_some_iff.mp empty).1

theorem holds_of_mayCall (nested : Nested state.slots state.userCallbackDepth state.stack)
    (may : state.mayCall ref) : state.slots.holds ref := by
  unfold ShardState.mayCall at may
  split at may
  · contradiction
  · simp only [decide_eq_true_eq] at may
    rcases may with ⟨-, called⟩ | ⟨-, opened⟩
    · obtain ⟨outer, inside, own⟩ := any_eq_true.mp called
      simp only [decide_eq_true_eq] at own
      exact nested.held outer inside ref own.2
    · exact Table.holds_of_isOpen opened

theorem Nested.steps (nested : Nested state.slots state.userCallbackDepth state.stack)
    (settled : Settled state) (outside : reapsOutside state action)
    (steps : Steps state action after) :
    Nested after.slots after.userCallbackDepth after.stack := by
  have keeps : ∀ {slots : TableState} {move : Table.Action}, move ≠ .reap →
      Table.step state.slots move = some slots → ∀ ref, state.slots.holds ref → slots.holds ref :=
    fun other moves _ held => Table.holds_of_step settled.inv moves held other
  have keepsTwo : ∀ {acquiring slots : TableState} {move : Table.Action},
      Table.step state.slots .acquire = some acquiring →
        Table.step acquiring move = some slots → move ≠ .reap →
          ∀ ref, state.slots.holds ref → slots.holds ref :=
    fun acquires moves other ref held => Table.holds_of_step
      (Table.inv_of_step settled.inv acquires) moves (keeps (by simp) acquires ref held) other
  cases steps with
  | fetch idle empty opened => exact nested
  | @deliver active ref batch idle next opened =>
    refine nested.push (.onEvent ref) ⟨nested.stacked, idle⟩ rfl fun _ own => ?_
    cases own
    exact Table.holds_of_isOpen opened
  | skip idle next => exact nested
  | @read ref rest top opened =>
    refine nested.push (.onRead ref) ⟨nested.stacked, trivial⟩ rfl fun _ own => ?_
    cases own
    exact Table.holds_of_isOpen opened
  | @close ref frame rest slots top own opened closes =>
    refine (nested.mono (keeps (by simp) closes)).push (.closeNow ref false)
      ⟨nested.stacked, trivial⟩ rfl fun _ own => ?_
    cases own
    exact keeps (by simp) closes _ (Table.holds_of_isOpen opened)
  | @notify ref rest top =>
    rw [top] at nested
    have own := nested.held (.closeNow ref false) mem_cons_self
    refine ((nested.pop rfl).push (.closeNow ref true)
      ⟨nested.stacked.1, trivial⟩ rfl own).push (.onClose ref) ?_ rfl own
    exact ⟨⟨nested.stacked.1, trivial⟩, trivial⟩
  | @reap frame rest slots top reaps moves =>
    rw [top] at nested
    obtain rfl := nested.reap_bottom reaps
    have plain : frame.isCallback = false := by
      rcases reaps with ⟨ref, rfl⟩ | rfl | ⟨rfl, -⟩ <;> rfl
    exact ⟨trivial, (nested.pop plain).counted, fun _ inside => absurd inside not_mem_nil⟩
  | @leave frame rest top plain =>
    rw [top] at nested
    exact nested.pop plain
  | @retire ref told rest slots top retires =>
    rw [top] at nested
    exact (nested.pop rfl).mono (keeps (by simp) retires)
  | @endCallback frame rest top callback =>
    rw [top] at nested
    exact nested.popCallback callback
  | @enter ref may =>
    refine nested.push (.member ref) ⟨nested.stacked, trivial⟩ rfl fun _ own => ?_
    cases own
    exact holds_of_mayCall nested may
  | handle user =>
    exact nested.push .reapingIfSafe ⟨nested.stacked, user_of_runsUserCode user⟩ rfl
      fun _ own => by cases own
  | sweep user =>
    have bottom := eq_nil_of_user (user_of_runsUserCode user) (nested.counted ▸ outside)
    exact nested.push .reaping ⟨nested.stacked, bottom⟩ rfl fun _ own => by cases own
  | @create starts acquiring slots slot user acquires acquired creates =>
    have bottom := eq_nil_of_user (user_of_runsUserCode user) (nested.counted ▸ outside)
    have created := holds_created settled.inv settled.idle acquires acquired creates
    have reaping := (nested.mono (keepsTwo acquires creates (by simp))).push .reaping
      ⟨nested.stacked, bottom⟩ rfl fun _ own => by cases own
    cases starts with
    | true =>
      refine reaping.push (.onAccept _) ⟨reaping.stacked, trivial⟩ rfl fun _ own => ?_
      cases own
      exact created
    | false =>
      refine reaping.push (.member _) ⟨reaping.stacked, trivial⟩ rfl fun _ own => ?_
      cases own
      exact created
  | createFails user acquires fails =>
    exact nested.mono (keepsTwo acquires fails (by simp))

/-- As long as the functions that reap without a look at the callbacks run
outside of callbacks, no connection is destroyed while one of its functions or
callbacks is on the stack. -/
theorem connection_outlives_frames {state : ShardState}
    (reached : system.ReachableUnder reapsOutside state) :
    ∀ frame ∈ state.stack, ∀ ref, frame.connection = some ref → state.slots.holds ref := by
  have nested : Nested state.slots state.userCallbackDepth state.stack := by
    induction reached with
    | start starts =>
      obtain rfl : _ = start := starts
      exact ⟨trivial, rfl, fun _ inside => by simp [start] at inside⟩
    | next reached permitted steps ih =>
      exact ih.steps (settled_of_reachable reached) permitted (steps_of_step steps)
  exact nested.held

theorem connection_outlives_frames_closedInRead :
    ∃ state, system.ReachableUnder reapsOutside state ∧
      state.stack = [.onRead ⟨0, ⟨0, 1⟩⟩, .onEvent ⟨0, ⟨0, 1⟩⟩] ∧
        state.slots.isOpen ⟨0, ⟨0, 1⟩⟩ = false ∧ state.slots.holds ⟨0, ⟨0, 1⟩⟩ := by
  obtain ⟨state, reached, observed⟩ := system.exists_reachableUnder
    reapsOutside (show system.initial start from rfl)
    [.create true, .leave, .leave, .fetch [⟨0, ⟨0, 1⟩⟩], .deliver true, .read, .handle,
      .enter ⟨0, ⟨0, 1⟩⟩, .close, .notify, .leave, .leave, .leave, .leave]
    (fun state => state.stack = [.onRead ⟨0, ⟨0, 1⟩⟩, .onEvent ⟨0, ⟨0, 1⟩⟩] ∧
      state.slots.isOpen ⟨0, ⟨0, 1⟩⟩ = false) (by decide)
  exact ⟨state, reached, observed.1, observed.2,
    connection_outlives_frames reached (.onRead ⟨0, ⟨0, 1⟩⟩) (by rw [observed.1]; simp) _ rfl⟩

/-- In `on_read` the user closes the connection, and a task that runs at once creates
another one: `create_connection` destroys the first, whose `on_event` and `on_read`
are on the stack. -/
theorem nested_create_destroys_running : ∃ state, system.Reachable state ∧
      state.stack = [.onRead ⟨0, ⟨0, 1⟩⟩, .onEvent ⟨0, ⟨0, 1⟩⟩] ∧
        state.slots.holds ⟨0, ⟨0, 1⟩⟩ = false :=
  system.exists_reachableUnder (fun _ _ => True) (show system.initial start from rfl)
    [.create true, .leave, .leave, .fetch [⟨0, ⟨0, 1⟩⟩], .deliver true, .read,
      .enter ⟨0, ⟨0, 1⟩⟩, .close, .notify, .leave, .leave, .leave, .create true, .leave, .leave]
    _ (by decide)

end Shard

end AsyncFlow
