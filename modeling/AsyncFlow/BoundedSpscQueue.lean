import AsyncFlow.BoundedQueueCommon
import AsyncFlow.TransitionSystem

/-!
# The single-producer single-consumer queue

A ring with two free-running counters: the producer advances `tail_`, the consumer
`head_`, and each refreshes a private copy of the other's counter only when the
copy says that the queue is full or empty.

Every access to the ring or to a counter is one step; decisions on local variables
belong to the step before.  A record of the calls that have returned says how many
items the queue held during each.
-/

namespace AsyncFlow

/-- The members of `BoundedSpscQueue`, apart from the constant capacity. -/
structure BoundedSpscQueue (α : Type*) where
  buffer : Nat → α
  head : BitVec 64
  tail : BitVec 64
  headCache : BitVec 64
  tailCache : BitVec 64

namespace Spsc

variable {α : Type*}

inductive PushPc (α : Type*)
  | idle
  | loadTail (value : α)
  | loadHead (value : α) (tail : BitVec 64)
  | write (value : α) (tail : BitVec 64)
  | storeTail (value : α) (tail : BitVec 64)
  | manyLoadTail (values : List α)
  | manyLoadHead (values : List α) (tail : BitVec 64)
  | manyWrite (values : List α) (tail count : BitVec 64) (index : Nat)
  | manyStoreTail (values : List α) (tail count : BitVec 64)

inductive PopPc (α : Type*)
  | idle
  | loadHead
  | loadTail (head : BitVec 64)
  | read (head : BitVec 64)
  | storeHead (head : BitVec 64) (value : α)
  | manyLoadHead (maxCount : BitVec 64)
  | manyLoadTail (maxCount head : BitVec 64) (wasEmpty : Bool)
  | manyRead (maxCount head count : BitVec 64) (out : List α)
  | manyStoreHead (maxCount head count : BitVec 64) (out : List α)

/-- A finished `try_push` of one value or `try_push_many` of several: the first
`count` of them were pushed. -/
structure PushReturn (α : Type*) where
  values : List α
  count : Nat
  moments : List Nat

structure PopReturn (α : Type*) where
  maxCount : Nat
  values : List α
  moments : List Nat

structure State (α : Type*) where
  queue : BoundedSpscQueue α
  producer : PushPc α
  consumer : PopPc α
  /-- History: the calls that have returned. -/
  pushReturns : List (PushReturn α)
  popReturns : List (PopReturn α)
  /-- History: what the queue held in the states of the present call. -/
  pushMoments : List Nat
  popMoments : List Nat

def pushed (state : State α) : List α :=
  state.pushReturns.flatMap fun call => call.values.take call.count

def popped (state : State α) : List α :=
  state.popReturns.flatMap PopReturn.values

def held (state : State α) : Nat :=
  (pushed state).length - (popped state).length

def record (state : State α) : State α :=
  { state with
    pushMoments := held state :: state.pushMoments
    popMoments := held state :: state.popMoments }

variable (capacity : BitVec 64)

def slot (index : BitVec 64) : Nat :=
  (index &&& (capacity - 1#64)).toNat

/-! ### The producer -/

def returnPush (state : State α) (values : List α) (count : Nat) : State α :=
  { state with
    producer := .idle
    pushReturns := state.pushReturns ++ [⟨values, count, state.pushMoments⟩] }

def withBuffer (state : State α) (index : Nat) (value : α) : State α :=
  { state with
    queue := { state.queue with buffer := Function.update state.queue.buffer index value } }

def withTail (state : State α) (tail : BitVec 64) : State α :=
  { state with queue := { state.queue with tail := tail } }

def refreshHead (state : State α) : State α :=
  { state with queue := { state.queue with headCache := state.queue.head } }

def withProducer (state : State α) (pc : PushPc α) : State α :=
  { state with producer := pc }

/-- The slot of the value with the given index in a batch: the batch is written
in two parts when it reaches over the end of the ring. -/
def manySlot (tail count : BitVec 64) (index : Nat) : Nat :=
  let first := tail &&& (capacity - 1#64)
  let firstCount := if count < capacity - first then count else capacity - first
  if index < firstCount.toNat then first.toNat + index else index - firstCount.toNat

def stepProducer (state : State α) : Option (State α) :=
  match state.producer with
  | .idle => none
  | .loadTail value =>
    let tail := state.queue.tail
    some (withProducer state
      (if capacity < tail + 1#64 - state.queue.headCache then .loadHead value tail
      else .write value tail))
  | .loadHead value tail =>
    let state := refreshHead state
    some (if capacity < tail + 1#64 - state.queue.headCache then returnPush state [value] 0
      else withProducer state (.write value tail))
  | .write value tail =>
    some (withProducer (withBuffer state (slot capacity tail) value) (.storeTail value tail))
  | .storeTail value tail => some (returnPush (withTail state (tail + 1#64)) [value] 1)
  | .manyLoadTail values =>
    let tail := state.queue.tail
    let used := tail - state.queue.headCache
    let available := if used < capacity then capacity - used else 0#64
    let count := BitVec.ofNat 64 values.length
    some (withProducer state
      (if available < count then .manyLoadHead values tail else .manyWrite values tail count 0))
  | .manyLoadHead values tail =>
    let state := refreshHead state
    let refreshedUsed := tail - state.queue.headCache
    let available := capacity - refreshedUsed
    let count := BitVec.ofNat 64 values.length
    some (if capacity ≤ refreshedUsed then returnPush state values 0
      else withProducer state
        (.manyWrite values tail (if available < count then available else count) 0))
  | .manyWrite values tail count index =>
    values[index]?.map fun value =>
      withProducer (withBuffer state (manySlot capacity tail count index) value)
        (if index + 1 < count.toNat then .manyWrite values tail count (index + 1)
        else .manyStoreTail values tail count)
  | .manyStoreTail values tail count =>
    some (returnPush (withTail state (tail + count)) values count.toNat)

/-! ### The consumer -/

def returnPop (state : State α) (maxCount : Nat) (values : List α) : State α :=
  { state with
    consumer := .idle
    popReturns := state.popReturns ++ [⟨maxCount, values, state.popMoments⟩] }

def withHead (state : State α) (head : BitVec 64) : State α :=
  { state with queue := { state.queue with head := head } }

def refreshTail (state : State α) : State α :=
  { state with queue := { state.queue with tailCache := state.queue.tail } }

def withConsumer (state : State α) (pc : PopPc α) : State α :=
  { state with consumer := pc }

def beginRead (state : State α) (maxCount head : BitVec 64) : State α :=
  let available := state.queue.tailCache - head
  withConsumer state
    (.manyRead maxCount head (if available < maxCount then available else maxCount) [])

def stepConsumer (state : State α) : Option (State α) :=
  match state.consumer with
  | .idle => none
  | .loadHead =>
    let head := state.queue.head
    some (withConsumer state (if state.queue.tailCache = head then .loadTail head else .read head))
  | .loadTail head =>
    let state := refreshTail state
    some (if state.queue.tailCache = head then returnPop state 1 []
      else withConsumer state (.read head))
  | .read head =>
    some (withConsumer state (.storeHead head (state.queue.buffer (slot capacity head))))
  | .storeHead head value => some (returnPop (withHead state (head + 1#64)) 1 [value])
  | .manyLoadHead maxCount =>
    let head := state.queue.head
    some (if state.queue.tailCache = head then
        withConsumer state (.manyLoadTail maxCount head true)
      else if state.queue.tailCache - head < maxCount then
        withConsumer state (.manyLoadTail maxCount head false)
      else beginRead state maxCount head)
  | .manyLoadTail maxCount head wasEmpty =>
    let state := refreshTail state
    some (if wasEmpty ∧ state.queue.tailCache = head then returnPop state maxCount.toNat []
      else beginRead state maxCount head)
  | .manyRead maxCount head count out =>
    let value := state.queue.buffer (slot capacity (head + BitVec.ofNat 64 out.length))
    some (withConsumer state
      (if out.length + 1 < count.toNat then .manyRead maxCount head count (out ++ [value])
      else .manyStoreHead maxCount head count (out ++ [value])))
  | .manyStoreHead maxCount head count out =>
    some (returnPop (withHead state (head + count)) maxCount.toNat out)

inductive Action (α : Type*)
  | tryPush (value : α)
  | tryPushMany (values : List α)
  | producer
  | tryPop
  | tryPopMany (maxCount : BitVec 64)
  | consumer

def beginPush (state : State α) (pc : PushPc α) : Option (State α) :=
  match state.producer with
  | .idle => some { state with producer := pc, pushMoments := [] }
  | _ => none

def beginPop (state : State α) (pc : PopPc α) : Option (State α) :=
  match state.consumer with
  | .idle => some { state with consumer := pc, popMoments := [] }
  | _ => none

/-- `count` is a `std::size_t`, and a batch of nothing returns at once. -/
def stepCall (state : State α) : Action α → Option (State α)
  | .tryPush value => beginPush state (.loadTail value)
  | .tryPushMany [] => (beginPush state .idle).map fun state => returnPush state [] 0
  | .tryPushMany values =>
    if values.length < 2 ^ 64 then beginPush state (.manyLoadTail values) else none
  | .tryPop => beginPop state .loadHead
  | .tryPopMany maxCount =>
    if maxCount = 0#64 then (beginPop state .idle).map fun state => returnPop state 0 []
    else beginPop state (.manyLoadHead maxCount)
  | .producer => stepProducer capacity state
  | .consumer => stepConsumer capacity state

def step (state : State α) (action : Action α) : Option (State α) :=
  (stepCall capacity state action).map record

variable [Inhabited α]

def start : State α where
  queue :=
    { buffer := fun _ => default
      head := 0#64
      tail := 0#64
      headCache := 0#64
      tailCache := 0#64 }
  producer := .idle
  consumer := .idle
  pushReturns := []
  popReturns := []
  pushMoments := []
  popMoments := []

def system (α : Type*) [Inhabited α] (capacity : BitVec 64) :
    TransitionSystem (State α) (Action α) where
  initial := fun state => state = start
  step := step capacity

end Spsc

end AsyncFlow
