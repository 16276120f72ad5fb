import AsyncFlow.BoundedQueueCommon
import AsyncFlow.TransitionSystem

/-!
# The multi-producer single-consumer queue

A ring of cells with sequence numbers.  A producer reserves positions by a
compare-and-exchange of `enqueue_pos_` when the sequence numbers of their cells
say that they are free, fills each cell and publishes it by its sequence number.
The consumer takes published cells in order and frees each for the next round.

Every access to a cell or to `enqueue_pos_` is one step; `dequeue_pos_` belongs to
the consumer alone and goes along with a step next to it.
-/

namespace AsyncFlow

open Function

structure Cell (α : Type*) where
  sequence : BitVec 64
  data : α

/-- The members of `BoundedMpscQueue`, apart from the constant capacity. -/
structure BoundedMpscQueue (α : Type*) where
  cells : Nat → Cell α
  enqueuePos : BitVec 64
  dequeuePos : BitVec 64

namespace Mpsc

variable {α : Type*}

inductive PushPc (α : Type*)
  | idle
  | loadPos (value : α)
  | loadSequence (value : α) (pos : BitVec 64)
  | exchange (value : α) (pos : BitVec 64)
  | write (value : α) (pos : BitVec 64)
  | storeSequence (value : α) (pos : BitVec 64)
  | manyLoadPos (values : List α)
  | manyLoadSequence (values : List α) (pos : BitVec 64) (reservable : Nat)
  | manyExchange (values : List α) (pos : BitVec 64) (reservable : Nat)
  | manyWrite (values : List α) (pos : BitVec 64) (reservable index : Nat)
  | manyStoreSequence (values : List α) (pos : BitVec 64) (reservable index : Nat)
  deriving DecidableEq

inductive PopPc (α : Type*)
  | idle
  | loadSequence (pos : BitVec 64)
  | read (pos : BitVec 64)
  | storeSequence (pos : BitVec 64) (value : α)
  | manyLoadSequence (maxCount : Nat) (pos : BitVec 64) (out : List α)
  | manyRead (maxCount : Nat) (pos : BitVec 64) (out : List α)
  | manyStoreSequence (maxCount : Nat) (pos : BitVec 64) (out : List α) (value : α)
  deriving DecidableEq

/-- A finished `try_push` of one value or `try_push_many` of several: the first
`count` of them went to the positions from `position` on. -/
structure PushReturn (α : Type*) where
  producer : Nat
  values : List α
  count : Nat
  position : Nat
  moments : List Nat

structure PopReturn (α : Type*) where
  maxCount : Nat
  values : List α
  moments : List Bool

structure State (α : Type*) where
  queue : BoundedMpscQueue α
  producers : Nat → PushPc α
  consumer : PopPc α
  /-- History: who reserved each position, and for which value. -/
  reserved : List (Nat × α)
  /-- History: the values whose cells were given free again. -/
  popped : List α
  published : Nat → Bool
  /-- History: how many positions were reserved when a producer began its call,
  and when it last read or exchanged `enqueue_pos_`. -/
  started : Nat → Nat
  position : Nat → Nat
  /-- History: the calls begun, and those that have returned. -/
  calls : Nat
  pushReturns : List (PushReturn α)
  popReturns : List (PopReturn α)
  /-- History: the positions reserved and not yet given free, and whether the next
  position to pop is published, in the states of the present calls. -/
  pushMoments : Nat → List Nat
  popMoments : List Bool

def pushed (state : State α) : List α :=
  state.reserved.map Prod.snd

def outstanding (state : State α) : Nat :=
  state.reserved.length - state.popped.length

def ready (state : State α) : Bool :=
  state.published state.popped.length

def record (state : State α) : State α :=
  { state with
    pushMoments := fun producer => outstanding state :: state.pushMoments producer
    popMoments := ready state :: state.popMoments }

variable (capacity : BitVec 64)

def slot (pos : BitVec 64) : Nat :=
  (pos &&& (capacity - 1#64)).toNat

def sequenceAt (state : State α) (pos : BitVec 64) : BitVec 64 :=
  (state.queue.cells (slot capacity pos)).sequence

def withCell (state : State α) (pos : BitVec 64) (cell : Cell α) : State α :=
  { state with
    queue := { state.queue with
      cells := update state.queue.cells (slot capacity pos) cell } }

def writeData (state : State α) (pos : BitVec 64) (value : α) : State α :=
  withCell capacity state pos ⟨sequenceAt capacity state pos, value⟩

def storeSequence (state : State α) (pos sequence : BitVec 64) : State α :=
  withCell capacity state pos ⟨sequence, (state.queue.cells (slot capacity pos)).data⟩

/-! ### Producers -/

def withProducer (state : State α) (producer : Nat) (pc : PushPc α) : State α :=
  { state with producers := update state.producers producer pc }

def seePosition (state : State α) (producer : Nat) : State α :=
  { state with position := update state.position producer state.reserved.length }

def reserve (state : State α) (producer : Nat) (pos : BitVec 64) (values : List α) : State α :=
  { seePosition state producer with
    queue := { state.queue with enqueuePos := pos + BitVec.ofNat 64 values.length }
    reserved := state.reserved ++ values.map (Prod.mk producer) }

def publish (state : State α) (producer : Nat) (pos : BitVec 64) (index : Nat) : State α :=
  { storeSequence capacity state (pos + BitVec.ofNat 64 index)
      (pos + BitVec.ofNat 64 index + 1#64) with
    published := update state.published (state.position producer + index) true }

def returnPush (state : State α) (producer : Nat) (values : List α) (count : Nat) : State α :=
  { withProducer state producer .idle with
    pushReturns := state.pushReturns ++
      [⟨producer, values, count, state.position producer, state.pushMoments producer⟩] }

def batchCount (values : List α) : Nat :=
  min values.length capacity.toNat

/-- `compare_exchange_weak` may fail for no reason. -/
def stepProducer (state : State α) (producer : Nat) (spurious : Bool) : Option (State α) :=
  match state.producers producer with
  | .idle => none
  | .loadPos value =>
    some (withProducer (seePosition state producer) producer
      (.loadSequence value state.queue.enqueuePos))
  | .loadSequence value pos =>
    let seq := sequenceAt capacity state pos
    some (if seq = pos then withProducer state producer (.exchange value pos)
      else if boundedQueueSequenceBefore seq pos then returnPush state producer [value] 0
      else withProducer state producer (.loadPos value))
  | .exchange value pos =>
    some (if spurious = false ∧ state.queue.enqueuePos = pos then
        withProducer (reserve state producer pos [value]) producer (.write value pos)
      else withProducer (seePosition state producer) producer
        (.loadSequence value state.queue.enqueuePos))
  | .write value pos =>
    some (withProducer (writeData capacity state pos value) producer (.storeSequence value pos))
  | .storeSequence value pos =>
    some (returnPush (publish capacity state producer pos 0) producer [value] 1)
  | .manyLoadPos values =>
    some (withProducer (seePosition state producer) producer
      (.manyLoadSequence values state.queue.enqueuePos 0))
  | .manyLoadSequence values pos reservable =>
    let expected := pos + BitVec.ofNat 64 reservable
    let seq := sequenceAt capacity state expected
    some (if seq = expected then
        withProducer state producer (if reservable + 1 < batchCount capacity values then
            .manyLoadSequence values pos (reservable + 1)
          else .manyExchange values pos (reservable + 1))
      else if reservable ≠ 0 then
        withProducer state producer (.manyExchange values pos reservable)
      else if boundedQueueSequenceBefore seq expected then returnPush state producer values 0
      else withProducer state producer (.manyLoadPos values))
  | .manyExchange values pos reservable =>
    some (if spurious = false ∧ state.queue.enqueuePos = pos then
        withProducer (reserve state producer pos (values.take reservable)) producer
          (.manyWrite values pos reservable 0)
      else withProducer (seePosition state producer) producer
        (.manyLoadSequence values state.queue.enqueuePos 0))
  | .manyWrite values pos reservable index =>
    values[index]?.map fun value =>
      withProducer (writeData capacity state (pos + BitVec.ofNat 64 index) value) producer
        (.manyStoreSequence values pos reservable index)
  | .manyStoreSequence values pos reservable index =>
    let state := publish capacity state producer pos index
    some (if index + 1 < reservable then
        withProducer state producer (.manyWrite values pos reservable (index + 1))
      else returnPush state producer values reservable)

/-! ### The consumer -/

def withConsumer (state : State α) (pc : PopPc α) : State α :=
  { state with consumer := pc }

def release (state : State α) (pos : BitVec 64) (value : α) : State α :=
  { storeSequence capacity state pos (pos + capacity) with popped := state.popped ++ [value] }

def returnPop (state : State α) (maxCount : Nat) (pos : BitVec 64) (values : List α) : State α :=
  { state with
    queue := { state.queue with dequeuePos := pos }
    consumer := .idle
    popReturns := state.popReturns ++ [⟨maxCount, values, state.popMoments⟩] }

def stepConsumer (state : State α) : Option (State α) :=
  match state.consumer with
  | .idle => none
  | .loadSequence pos =>
    some (if sequenceAt capacity state pos = pos + 1#64 then withConsumer state (.read pos)
      else returnPop state 1 pos [])
  | .read pos =>
    some (withConsumer state (.storeSequence pos (state.queue.cells (slot capacity pos)).data))
  | .storeSequence pos value =>
    some (returnPop (release capacity state pos value) 1 (pos + 1#64) [value])
  | .manyLoadSequence maxCount pos out =>
    some (if sequenceAt capacity state pos = pos + 1#64 then
        withConsumer state (.manyRead maxCount pos out)
      else returnPop state maxCount pos out)
  | .manyRead maxCount pos out =>
    some (withConsumer state
      (.manyStoreSequence maxCount pos out (state.queue.cells (slot capacity pos)).data))
  | .manyStoreSequence maxCount pos out value =>
    let state := release capacity state pos value
    some (if out.length + 1 < maxCount then
        withConsumer state (.manyLoadSequence maxCount (pos + 1#64) (out ++ [value]))
      else returnPop state maxCount (pos + 1#64) (out ++ [value]))

inductive Action (α : Type*)
  | tryPush (producer : Nat) (value : α)
  | tryPushMany (producer : Nat) (values : List α)
  | producer (producer : Nat) (spurious : Bool)
  | tryPop
  | tryPopMany (maxCount : Nat)
  | consumer

def beginPush (state : State α) (producer : Nat) (pc : PushPc α) : Option (State α) :=
  match state.producers producer with
  | .idle => some { withProducer state producer pc with
        calls := state.calls + 1
        started := update state.started producer state.reserved.length
        pushMoments := update state.pushMoments producer [] }
  | _ => none

def beginPop (state : State α) (pc : PopPc α) : Option (State α) :=
  match state.consumer with
  | .idle => some { state with consumer := pc, calls := state.calls + 1, popMoments := [] }
  | _ => none

/-- Counts are of type `std::size_t`; calls for nothing return at once. -/
def stepCall (state : State α) : Action α → Option (State α)
  | .tryPush producer value => beginPush state producer (.loadPos value)
  | .tryPushMany producer [] =>
    (beginPush state producer .idle).map fun state => returnPush state producer [] 0
  | .tryPushMany producer values =>
    if values.length < 2 ^ 64 then beginPush state producer (.manyLoadPos values) else none
  | .tryPop => beginPop state (.loadSequence state.queue.dequeuePos)
  | .tryPopMany maxCount =>
    if maxCount = 0 then
      (beginPop state .idle).map fun state => returnPop state 0 state.queue.dequeuePos []
    else if maxCount < 2 ^ 64 then
      beginPop state (.manyLoadSequence maxCount state.queue.dequeuePos [])
    else none
  | .producer producer spurious => stepProducer capacity state producer spurious
  | .consumer => stepConsumer capacity state

def step (state : State α) (action : Action α) : Option (State α) :=
  (stepCall capacity state action).map record

variable [Inhabited α]

def start : State α where
  queue :=
    { cells := fun index => ⟨BitVec.ofNat 64 index, default⟩
      enqueuePos := 0#64
      dequeuePos := 0#64 }
  producers := fun _ => .idle
  consumer := .idle
  reserved := []
  popped := []
  published := fun _ => false
  started := fun _ => 0
  position := fun _ => 0
  calls := 0
  pushReturns := []
  popReturns := []
  pushMoments := fun _ => []
  popMoments := []

def system (α : Type*) [Inhabited α] (capacity : BitVec 64) :
    TransitionSystem (State α) (Action α) where
  initial := fun state => state = start
  step := step capacity

end Mpsc

end AsyncFlow
