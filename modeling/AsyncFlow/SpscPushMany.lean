import AsyncFlow.SpscRefinement

/-!
# A pushed batch is a row of single pushes

`try_push_many`, run to its end while the consumer stands still, leaves the queue
as one `try_push` for each value does, down to the producer's copy of `head_`.
-/

namespace AsyncFlow

open List Option

namespace Spsc

variable {α : Type*}

/-! ### What pushes do -/

/-- Write values to consecutive positions of a ring. -/
def writeAll (size : Nat) (buffer : Nat → α) (position : Nat) : List α → Nat → α
  | [] => buffer
  | value :: values =>
    writeAll size (Function.update buffer (position % size) value) (position + 1) values

theorem writeAll_append {size position : Nat} {buffer : Nat → α} (first second : List α) :
    writeAll size buffer position (first ++ second) =
      writeAll size (writeAll size buffer position first) (position + first.length) second := by
  induction first generalizing buffer position with
  | nil => rfl
  | cons value first ih =>
    rw [cons_append, writeAll, ih, writeAll, length_cons,
      show position + 1 + first.length = position + (first.length + 1) by omega]

theorem writeAll_take_succ {size position index : Nat} {buffer : Nat → α} (values : List α)
    (inside : index < values.length) : writeAll size buffer position (values.take (index + 1)) =
      Function.update (writeAll size buffer position (values.take index))
        ((position + index) % size) values[index] := by
  rw [take_add_one, getElem?_eq_getElem inside, writeAll_append, length_take_of_le (by omega)]
  rfl

/-- What the producer changes: all values pushed, its copy of `head_` and the
ring. -/
structure PushSide (α : Type*) where
  log : List α
  copy : Nat
  buffer : Nat → α

namespace PushSide

variable (size gone : Nat) (side : PushSide α)

def append (values : List α) : PushSide α :=
  { side with
    log := side.log ++ values
    buffer := writeAll size side.buffer side.log.length values }

def refresh : PushSide α :=
  { side with copy := gone }

def push (value : α) : PushSide α :=
  if side.log.length < side.copy + size then side.append size [value]
  else if side.log.length < gone + size then (side.refresh gone).append size [value]
  else side.refresh gone

def pushMany (values : List α) : PushSide α :=
  if side.log.length + values.length ≤ side.copy + size then side.append size values
  else (side.refresh gone).append size (values.take (gone + size - side.log.length))

variable {size gone side}

theorem append_nil : side.append size [] = side := by
  simp [append, writeAll]

theorem append_append (first second : List α) :
    (side.append size first).append size second = side.append size (first ++ second) := by
  simp [append, writeAll_append]

theorem length_append (values : List α) :
    (side.append size values).log.length = side.log.length + values.length := by
  simp [append]

theorem take_cons {room : Nat} (positive : 0 < room) (value : α) (values : List α) :
    (value :: values).take room = [value] ++ values.take (room - 1) := by
  obtain ⟨rest, rfl⟩ := Nat.exists_eq_succ_of_ne_zero positive.ne'
  rfl

theorem pushMany_append {value : α} {values : List α} (behind : side.copy ≤ gone)
    (room : side.log.length < side.copy + size) :
    (side.append size [value]).pushMany size gone values =
      side.pushMany size gone (value :: values) := by
  have commutes : (side.append size [value]).refresh gone =
      (side.refresh gone).append size [value] := rfl
  have same : (side.append size [value]).copy = side.copy := rfl
  rw [pushMany, pushMany, commutes, append_append, append_append, same, length_append,
    length_singleton, length_cons, take_cons (by omega),
    show gone + size - side.log.length - 1 = gone + size - (side.log.length + 1) by omega]
  by_cases all : side.log.length + 1 + values.length ≤ side.copy + size
  · rw [if_pos all, if_pos (by omega)]
    rfl
  · rw [if_neg all, if_neg (by omega)]

theorem pushMany_refresh {value : α} {values : List α}
    (noRoom : side.copy + size ≤ side.log.length) (room : side.log.length < gone + size) :
    (side.refresh gone).pushMany size gone (value :: values) =
      side.pushMany size gone (value :: values) := by
  have same : (side.refresh gone).copy = gone := rfl
  have again : (side.refresh gone).refresh gone = side.refresh gone := rfl
  have length : (side.refresh gone).log.length = side.log.length := rfl
  rw [pushMany, pushMany, same, again, length, length_cons,
    if_neg (show ¬ side.log.length + (values.length + 1) ≤ side.copy + size by omega)]
  split
  · rw [take_of_length_le (by rw [length_cons]; omega)]
  · rfl

theorem foldl_push (behind : side.copy ≤ gone) (room : side.log.length ≤ side.copy + size)
    (values : List α) : values.foldl (push size gone) side = side.pushMany size gone values := by
  induction values generalizing side with
  | nil => rw [foldl_nil, pushMany, if_pos (by simpa using room), append_nil]
  | cons value values ih =>
    have follows : ∀ {side : PushSide α}, side.copy ≤ gone → side.log.length < side.copy + size →
        values.foldl (push size gone) (side.append size [value]) =
          side.pushMany size gone (value :: values) := by
      intro side behind room
      have same : (side.append size [value]).copy = side.copy := rfl
      rw [← pushMany_append behind room]
      refine ih behind ?_
      rw [same, length_append, length_singleton]
      omega
    rw [foldl_cons, push]
    split
    · exact follows behind (by assumption)
    · split
      · rename_i noRoom isRoom
        rw [← pushMany_refresh (by omega) isRoom]
        exact follows (Nat.le_refl _) isRoom
      · -- The queue is full, and stays so.
        rename_i noRoom isFull
        have nothing : gone + size - side.log.length = 0 := by omega
        rw [ih (Nat.le_refl _) (show side.log.length ≤ gone + size by omega), pushMany, pushMany,
          length_cons,
          if_neg (show ¬ side.log.length + (values.length + 1) ≤ side.copy + size by omega),
          nothing, take_zero, append_nil]
        split
        · rename_i all
          have all : side.log.length + values.length ≤ gone + size := all
          rw [eq_nil_of_length_eq_zero (show values.length = 0 by omega), append_nil]
        · rw [show gone + size - (side.refresh gone).log.length = 0 from nothing, take_zero,
            append_nil]
          rfl

end PushSide

/-! ### Pushes that run alone -/

def runAlone (capacity : BitVec 64) (side : Action α) : Nat → State α → State α
  | 0, state => state
  | fuel + 1, state =>
    match step capacity state side with
    | none => state
    | some next => runAlone capacity side fuel next

/-- A call that runs to its end while the other side stands still. -/
def callAlone (capacity : BitVec 64) (side : Action α) (fuel : Nat) (call : Action α)
    (state : State α) : Option (State α) :=
  (step capacity state call).map (runAlone capacity side fuel)

theorem runAlone_step {capacity : BitVec 64} {side : Action α} {fuel : Nat}
    {state between : State α} {ends : State α → Prop} (enough : 0 < fuel)
    (steps : stepCall capacity state side = some between)
    (rest : ends (runAlone capacity side (fuel - 1) (record between))) :
    ends (runAlone capacity side fuel state) := by
  obtain ⟨less, rfl⟩ := Nat.exists_eq_succ_of_ne_zero enough.ne'
  simpa [runAlone, step, steps] using rest

def PushSide.queue (side : PushSide α) (gone : Nat) (tailCache : BitVec 64) :
    BoundedSpscQueue α where
  buffer := side.buffer
  head := BitVec.ofNat 64 gone
  tail := BitVec.ofNat 64 side.log.length
  headCache := BitVec.ofNat 64 side.copy
  tailCache := tailCache

/-- The state of the queue is that of the side, with the producer at the given
program counter. -/
structure Shows (gone : Nat) (tailCache : BitVec 64) (side : PushSide α) (pc : PushPc α)
    (state : State α) : Prop where
  queue : state.queue = side.queue gone tailCache
  log : pushed state = side.log
  producer : state.producer = pc

section Alone

variable {capacity : QueueCapacity} {gone : Nat} {tailCache : BitVec 64}
  {side after : PushSide α} {pc next : PushPc α} {state between : State α} {fuel : Nat}

structure PushSide.Fits (size gone : Nat) (side : PushSide α) : Prop where
  behind : side.copy ≤ gone
  ordered : gone ≤ side.log.length
  room : side.log.length ≤ side.copy + size

theorem Shows.record (shows_ : Shows gone tailCache side pc state) :
    Shows gone tailCache side pc (record state) :=
  ⟨shows_.queue, shows_.log, shows_.producer⟩

theorem runProducer_idle (isIdle : state.producer = .idle) :
    runAlone capacity.word .producer fuel state = state := by
  cases fuel with
  | zero => rfl
  | succ fuel => simp [runAlone, step, stepCall, stepProducer, isIdle]

theorem runProducer_step (enough : 0 < fuel)
    (steps : stepProducer capacity.word state = some between)
    (rest : Shows gone tailCache side .idle
      (runAlone capacity.word .producer (fuel - 1) (record between))) :
    Shows gone tailCache side .idle (runAlone capacity.word .producer fuel state) :=
  runAlone_step enough steps rest

variable {value : α} {values : List α} {count : BitVec 64}

theorem runProducer_publish (enough : 0 < fuel) (inside : count.toNat ≤ values.length)
    (steps : stepProducer capacity.word state = some (returnPush
      (withTail state (BitVec.ofNat 64 side.log.length + count)) values count.toNat))
    (shows_ : Shows gone tailCache { side with
        buffer := writeAll capacity.size side.buffer side.log.length (values.take count.toNat) }
      pc state) :
    Shows gone tailCache (side.append capacity.size (values.take count.toNat)) .idle
      (runAlone capacity.word .producer fuel state) := by
  obtain ⟨isQueue, isLog, isPc⟩ := shows_
  refine runProducer_step enough steps ?_
  rw [runProducer_idle rfl]
  refine Shows.record ⟨?_, ?_, rfl⟩
  · simp [returnPush, withTail, isQueue, PushSide.queue, PushSide.append, ofNat_add_word, inside]
  · rw [pushed_returnPush]
    change pushed state ++ _ = _
    rw [isLog]
    rfl

theorem runProducer_write (enough : 1 < fuel)
    (shows_ : Shows gone tailCache side (.write value (BitVec.ofNat 64 side.log.length)) state) :
    Shows gone tailCache (side.append capacity.size [value]) .idle
      (runAlone capacity.word .producer fuel state) := by
  obtain ⟨isQueue, isLog, isPc⟩ := shows_
  refine runProducer_step (by omega) (by rw [stepProducer, isPc]) ?_
  refine @runProducer_publish _ _ _ _ _ _ _ _ [value] 1#64 (by omega) (by simp) ?_
    (Shows.record ⟨?_, isLog, rfl⟩)
  · rfl
  have isSlot : slot capacity.word (BitVec.ofNat 64 side.log.length) =
      side.log.length % capacity.size := capacity.slot _
  simp [withProducer, withBuffer, isQueue, PushSide.queue, writeAll, isSlot]

theorem runProducer_loadTail (enough : 3 < fuel) (fits : side.Fits capacity.size gone)
    (shows_ : Shows gone tailCache side (.loadTail value) state) :
    Shows gone tailCache (side.push capacity.size gone value) .idle
      (runAlone capacity.word .producer fuel state) := by
  obtain ⟨isQueue, isLog, isPc⟩ := shows_
  obtain ⟨behind, ordered, room⟩ := fits
  have compare := @lt_next_sub_iff capacity side.log.length side.copy (by omega) room
  have fresh := @lt_next_sub_iff capacity side.log.length gone ordered (by omega)
  refine runProducer_step (by omega) (by rw [stepProducer, isPc]) ?_
  simp only [isQueue, PushSide.queue, compare]
  rw [PushSide.push]
  by_cases isRoom : side.log.length < side.copy + capacity.size
  · rw [if_pos isRoom, if_neg (show ¬ side.copy + capacity.size ≤ side.log.length by omega)]
    exact runProducer_write (by omega) (Shows.record ⟨isQueue, isLog, rfl⟩)
  · rw [if_neg isRoom, if_pos (show side.copy + capacity.size ≤ side.log.length by omega)]
    refine runProducer_step (by omega) (by simp only [stepProducer]; rfl) ?_
    simp only [refreshHead, withProducer, AsyncFlow.Spsc.record, isQueue, PushSide.queue, fresh]
    by_cases isFresh : side.log.length < gone + capacity.size
    · rw [if_pos isFresh, if_neg (show ¬ gone + capacity.size ≤ side.log.length by omega)]
      exact runProducer_write (by omega) (Shows.record ⟨rfl, isLog, rfl⟩)
    · rw [if_neg isFresh, if_pos (show gone + capacity.size ≤ side.log.length by omega),
        runProducer_idle rfl]
      refine Shows.record ⟨rfl, ?_, rfl⟩
      rw [pushed_returnPush, take_zero, append_nil]
      exact isLog

theorem runProducer_writeNext {index : Nat} (enough : 0 < fuel) (below : index < count.toNat)
    (inside : count.toNat ≤ values.length) (fits : count.toNat ≤ capacity.size)
    (shows_ : Shows gone tailCache { side with
        buffer := writeAll capacity.size side.buffer side.log.length (values.take index) }
      (.manyWrite values (BitVec.ofNat 64 side.log.length) count index) state)
    (follows : ∀ {next : State α}, Shows gone tailCache { side with
          buffer := writeAll capacity.size side.buffer side.log.length (values.take (index + 1)) }
        (if index + 1 < count.toNat then
          .manyWrite values (BitVec.ofNat 64 side.log.length) count (index + 1)
        else .manyStoreTail values (BitVec.ofNat 64 side.log.length) count) next →
      Shows gone tailCache after .idle (runAlone capacity.word .producer (fuel - 1) next)) :
    Shows gone tailCache after .idle (runAlone capacity.word .producer fuel state) := by
  obtain ⟨isQueue, isLog, isPc⟩ := shows_
  have isValue : values[index]? = some values[index] := getElem?_eq_getElem (by omega)
  have steps : stepProducer capacity.word state = some (withProducer
      (withBuffer state (manySlot capacity.word (BitVec.ofNat 64 side.log.length) count index)
        values[index])
      (if index + 1 < count.toNat then
        .manyWrite values (BitVec.ofNat 64 side.log.length) count (index + 1)
      else .manyStoreTail values (BitVec.ofNat 64 side.log.length) count)) := by
    simp only [stepProducer, isPc, isValue, map_some]
  refine runProducer_step enough steps (follows (Shows.record ⟨?_, isLog, rfl⟩))
  rw [writeAll_take_succ _ (by omega)]
  simp [withProducer, withBuffer, isQueue, PushSide.queue, manySlot_eq below fits]

theorem runProducer_manyWrite (remaining : Nat) {index : Nat}
    (isRemaining : index + remaining + 1 = count.toNat) (enough : remaining + 1 < fuel)
    (inside : count.toNat ≤ values.length) (fits : count.toNat ≤ capacity.size)
    (shows_ : Shows gone tailCache { side with
        buffer := writeAll capacity.size side.buffer side.log.length (values.take index) }
      (.manyWrite values (BitVec.ofNat 64 side.log.length) count index) state) :
    Shows gone tailCache (side.append capacity.size (values.take count.toNat)) .idle
      (runAlone capacity.word .producer fuel state) := by
  induction remaining generalizing index fuel state with
  | zero =>
    refine runProducer_writeNext (by omega) (by omega) inside fits shows_ fun shows_ => ?_
    rw [if_neg (by omega), show index + 1 = count.toNat from isRemaining] at shows_
    exact runProducer_publish (by omega) inside (by rw [stepProducer, shows_.producer]) shows_
  | succ remaining ih =>
    refine runProducer_writeNext (by omega) (by omega) inside fits shows_ fun shows_ => ?_
    rw [if_pos (by omega)] at shows_
    exact ih (by omega) (by omega) shows_

theorem runProducer_manyLoadTail (enough : values.length + 3 < fuel) (notEmpty : 0 < values.length)
    (small : values.length < 2 ^ 64) (fits : side.Fits capacity.size gone)
    (shows_ : Shows gone tailCache side (.manyLoadTail values) state) :
    Shows gone tailCache (side.pushMany capacity.size gone values) .idle
      (runAlone capacity.word .producer fuel state) := by
  obtain ⟨isQueue, isLog, isPc⟩ := shows_
  obtain ⟨behind, ordered, room⟩ := fits
  have asked := toNat_ofNat_length small
  have used := @toNat_tail_sub capacity side.log.length side.copy (by omega) room
  have available := @toNat_available capacity _ _ used (by omega)
  have refreshed := @toNat_tail_sub capacity side.log.length gone ordered (by omega)
  refine runProducer_step (by omega) (by rw [stepProducer, isPc]) ?_
  simp only [isQueue, PushSide.queue]
  have compare : (if BitVec.ofNat 64 side.log.length - BitVec.ofNat 64 side.copy < capacity.word then
      capacity.word - (BitVec.ofNat 64 side.log.length - BitVec.ofNat 64 side.copy) else 0#64) <
      BitVec.ofNat 64 values.length ↔ ¬ side.log.length + values.length ≤ side.copy + capacity.size := by
    rw [BitVec.lt_def, available, asked]
    omega
  simp only [compare]
  rw [PushSide.pushMany]
  by_cases all : side.log.length + values.length ≤ side.copy + capacity.size
  · rw [if_pos all, if_neg (not_not.mpr all)]
    have whole := @runProducer_manyWrite α capacity gone tailCache side (record (withProducer state
      (.manyWrite values (BitVec.ofNat 64 side.log.length) (BitVec.ofNat 64 values.length) 0)))
      (fuel - 1) values (BitVec.ofNat 64 values.length) (values.length - 1) 0 (by omega) (by omega)
      (by omega) (by omega) (Shows.record ⟨isQueue, isLog, rfl⟩)
    rwa [asked, take_length] at whole
  · rw [if_neg all, if_pos all]
    refine runProducer_step (by omega) (by simp only [stepProducer]; rfl) ?_
    have full : capacity.word ≤ BitVec.ofNat 64 side.log.length - BitVec.ofNat 64 gone ↔
        gone + capacity.size ≤ side.log.length := by
      rw [BitVec.le_def, capacity.toNat_word, refreshed]
      omega
    simp only [refreshHead, withProducer, AsyncFlow.Spsc.record, isQueue, PushSide.queue, full]
    by_cases isFull : gone + capacity.size ≤ side.log.length
    · rw [if_pos isFull, runProducer_idle rfl,
        show gone + capacity.size - side.log.length = 0 by omega, take_zero,
        PushSide.append_nil]
      refine Shows.record ⟨rfl, ?_, rfl⟩
      rw [pushed_returnPush, take_zero, append_nil]
      exact isLog
    · rw [if_neg isFull]
      have count := toNat_min
        (capacity.word - (BitVec.ofNat 64 side.log.length - BitVec.ofNat 64 gone))
        (BitVec.ofNat 64 values.length)
      rw [toNat_room refreshed (by omega), asked] at count
      have cut : values.take (gone + capacity.size - side.log.length) =
          values.take (if capacity.word - (BitVec.ofNat 64 side.log.length - BitVec.ofNat 64 gone) <
            BitVec.ofNat 64 values.length then
            capacity.word - (BitVec.ofNat 64 side.log.length - BitVec.ofNat 64 gone)
          else BitVec.ofNat 64 values.length).toNat := by
        rw [count, take_eq_take_iff]
        omega
      rw [cut]
      exact runProducer_manyWrite (min (gone + capacity.size - side.log.length) values.length - 1)
        (by rw [count]; omega) (by omega) (by rw [count]; omega) (by rw [count]; omega)
        (Shows.record ⟨rfl, isLog, rfl⟩)

theorem PushSide.Fits.push {size : Nat} (fits : side.Fits size gone) (value : α) :
    (side.push size gone value).Fits size gone := by
  obtain ⟨behind, ordered, room⟩ := fits
  rw [PushSide.push]
  split
  · refine ⟨behind, ?_, ?_⟩ <;> rw [length_append] <;> simp [append] <;> omega
  · split
    · refine ⟨Nat.le_refl _, ?_, ?_⟩ <;> rw [length_append] <;> simp [append, refresh] <;> omega
    · exact ⟨Nat.le_refl _, ordered, by simp [refresh]; omega⟩

theorem callAlone_tryPush (value : α) (enough : 3 < fuel) (fits : side.Fits capacity.size gone)
    (shows_ : Shows gone tailCache side .idle state) :
    ∃ next, callAlone capacity.word .producer fuel (.tryPush value) state = some next ∧
      Shows gone tailCache (side.push capacity.size gone value) .idle next := by
  obtain ⟨isQueue, isLog, isPc⟩ := shows_
  refine ⟨_, by simp only [callAlone, step, stepCall, beginPush, isPc, map_some]; rfl, ?_⟩
  exact runProducer_loadTail enough fits (Shows.record ⟨isQueue, isLog, rfl⟩)

theorem callAlone_tryPushes (enough : 3 < fuel) (fits : side.Fits capacity.size gone)
    (shows_ : Shows gone tailCache side .idle state) : ∃ next, values.foldlM (fun state value =>
        callAlone capacity.word .producer fuel (.tryPush value) state) state = some next ∧
      Shows gone tailCache (values.foldl (PushSide.push capacity.size gone) side) .idle next := by
  induction values generalizing side state with
  | nil => exact ⟨state, rfl, shows_⟩
  | cons value values ih =>
    obtain ⟨between, calls, shows_⟩ := callAlone_tryPush value enough fits shows_
    obtain ⟨next, others, shows_⟩ := ih (fits.push value) shows_
    exact ⟨next, by rw [foldlM_cons, calls]; exact others, shows_⟩

theorem callAlone_tryPushMany (enough : values.length + 3 < fuel) (small : values.length < 2 ^ 64)
    (fits : side.Fits capacity.size gone) (shows_ : Shows gone tailCache side .idle state) :
    ∃ next, callAlone capacity.word .producer fuel (.tryPushMany values) state = some next ∧
      Shows gone tailCache (side.pushMany capacity.size gone values) .idle next := by
  obtain ⟨isQueue, isLog, isPc⟩ := shows_
  cases values with
  | nil =>
    refine ⟨_, by simp only [callAlone, step, stepCall, beginPush, isPc, Option.map_some]; rfl, ?_⟩
    rw [runProducer_idle rfl, PushSide.pushMany, if_pos (by simpa using fits.room),
      PushSide.append_nil]
    refine Shows.record ⟨isQueue, ?_, rfl⟩
    rw [pushed_returnPush, List.take_nil, List.append_nil]
    exact isLog
  | cons value values =>
    refine ⟨_, by simp only [callAlone, step, stepCall, beginPush, isPc, if_pos small,
      Option.map_some]; rfl, ?_⟩
    exact runProducer_manyLoadTail enough (by simp) small fits (Shows.record ⟨isQueue, isLog, rfl⟩)

end Alone

end Spsc

end AsyncFlow
