import AsyncFlow.TransitionSystem
import Mathlib.Algebra.Group.Nat.Defs

/-!
# The connection table of a shard

A shard keeps its connections in slots, recycled through a free list; a closed
connection stays in its slot until it is reaped, and empty slots at the end are
trimmed off.  The generation of a slot advances when the slot is acquired and
outlives trimming, so that slot and generation name a connection.

Closing a connection calls the user before the connection is retired, and other
things may happen in between.  Stopping the shard and removing a listener close
and retire connections one by one and then reap.
-/

namespace AsyncFlow

structure ConnectionSlot where
  index : Nat
  generation : Nat
  deriving DecidableEq

/-- What the table sees of a connection.  The serial number tells connections
apart and is not in the code. -/
structure SlotConnection where
  serial : Nat
  generation : Nat
  alive : Bool
  deriving DecidableEq

structure ConnectionTable where
  connections : List (Option SlotConnection)
  generations : List Nat
  retired : List ConnectionSlot
  /-- `free_connection_slots_`, with its back at the end -/
  free : List Nat
  deriving DecidableEq

def generationValues : Nat := 2 ^ 32

/-- Generations are 32 bits wide and are never zero. -/
def nextGeneration (generation : Nat) : Nat :=
  let next := (generation + 1) % generationValues
  if next = 0 then 1 else next

namespace ConnectionTable

def new : ConnectionTable where
  connections := []
  generations := []
  retired := []
  free := []

def find (table : ConnectionTable) (slot generation : Nat) : Option SlotConnection :=
  match table.connections[slot]? with
  | some (some connection) =>
    if !connection.alive || connection.generation ≠ generation then none
    else some connection
  | _ => none

def advanceGeneration (table : ConnectionTable) (slot : Nat) : ConnectionTable × ConnectionSlot :=
  let next := nextGeneration (table.generations.getD slot 0)
  ({ table with generations := table.generations.set slot next }, ⟨slot, next⟩)

def acquireConnectionSlot (table : ConnectionTable) : ConnectionTable × ConnectionSlot :=
  match table.free.getLast? with
  | some slot => { table with free := table.free.dropLast }.advanceGeneration slot
  | none =>
    let slot := table.connections.length
    let grown := { table with connections := table.connections ++ [none] }
    if grown.generations.length ≤ slot then
      ({ grown with generations := grown.generations ++ [1] }, ⟨slot, 1⟩)
    else grown.advanceGeneration slot

def store (table : ConnectionTable) (slot : ConnectionSlot) (serial : Nat) : ConnectionTable :=
  { table with
    connections := table.connections.set slot.index (some ⟨serial, slot.generation, true⟩) }

/-- The last entry of the free list with the given slot is removed. -/
def eraseFreeConnectionSlot (table : ConnectionTable) (slot : Nat) : ConnectionTable :=
  { table with free := (table.free.reverse.erase slot).reverse }

/-- The loop of `trim_empty_tail_slots`; each round removes a slot. -/
def trimLoop : Nat → ConnectionTable → ConnectionTable
  | 0, table => table
  | rounds + 1, table =>
    match table.connections.getLast? with
    | some none =>
      let erased := table.eraseFreeConnectionSlot (table.connections.length - 1)
      trimLoop rounds { erased with connections := erased.connections.dropLast }
    | _ => table

def trimEmptyTailSlots (table : ConnectionTable) : ConnectionTable :=
  trimLoop table.connections.length table

def pushFree (table : ConnectionTable) (slot : Nat) : ConnectionTable :=
  if slot + 1 < table.connections.length then { table with free := table.free ++ [slot] }
  else table

def releaseUnusedConnectionSlot (table : ConnectionTable) (slot : ConnectionSlot) :
    ConnectionTable :=
  if table.generations[slot.index]? = some slot.generation ∧
      table.connections[slot.index]? = some none then
    (table.pushFree slot.index).trimEmptyTailSlots
  else table

def markClosed (table : ConnectionTable) (index : Nat) : ConnectionTable :=
  { table with
    connections := table.connections.modify index (·.map fun connection =>
      { connection with alive := false }) }

def retireConnection (table : ConnectionTable) (slot : ConnectionSlot) : ConnectionTable :=
  { table with retired := table.retired ++ [slot] }

def reapOne (table : ConnectionTable) (retired : ConnectionSlot) : ConnectionTable :=
  if table.generations[retired.index]? ≠ some retired.generation then table
  else
    match table.connections[retired.index]? with
    | some (some connection) =>
      if connection.alive || connection.generation ≠ retired.generation then table
      else
        { table with
          connections := table.connections.set retired.index none }.pushFree retired.index
    | _ => table

def reapRetiredConnections (table : ConnectionTable) : ConnectionTable :=
  if table.retired = [] then table
  else
    { table.retired.foldl reapOne table with retired := [] }.trimEmptyTailSlots

end ConnectionTable

structure Creation where
  serial : Nat
  slot : ConnectionSlot
  number : Nat
  deriving DecidableEq

structure TableState where
  table : ConnectionTable
  /-- the slot acquired by the `create_connection` that runs -/
  acquired : Option ConnectionSlot
  /-- the connections in `close_now`, which retires them at its end -/
  closing : List ConnectionSlot
  nextSerial : Nat
  /-- History: how often each slot was acquired. -/
  acquisitions : Nat → Nat
  /-- History: the connections created. -/
  created : List Creation

namespace Table

inductive Action
  | acquire
  | create
  | createFails
  | close (index : Nat)
  | retire (slot : ConnectionSlot)
  | reap
  | trim
  deriving DecidableEq

def stepAcquired (state : TableState) (slot : ConnectionSlot) : Action → Option TableState
  | .create =>
    some { state with
      table := state.table.store slot state.nextSerial
      acquired := none
      nextSerial := state.nextSerial + 1
      created := state.created ++ [⟨state.nextSerial, slot, state.acquisitions slot.index⟩] }
  | .createFails =>
    some { state with
      table := state.table.releaseUnusedConnectionSlot slot
      acquired := none }
  | _ => none

def stepIdle (state : TableState) : Action → Option TableState
  | .acquire =>
    let (table, slot) := state.table.acquireConnectionSlot
    some { state with
      table := table
      acquired := some slot
      acquisitions := Function.update state.acquisitions slot.index
        (state.acquisitions slot.index + 1) }
  | .close index =>
    match state.table.connections[index]? with
    | some (some connection) =>
      if connection.alive then
        some { state with
          table := state.table.markClosed index
          closing := state.closing ++ [⟨index, connection.generation⟩] }
      else none
    | _ => none
  | .retire slot =>
    if slot ∈ state.closing then
      some { state with
        table := state.table.retireConnection slot
        closing := state.closing.erase slot }
    else none
  | .reap => some { state with table := state.table.reapRetiredConnections }
  | .trim => some { state with table := state.table.trimEmptyTailSlots }
  | .create | .createFails => none

def step (state : TableState) (action : Action) : Option TableState :=
  match state.acquired with
  | some slot => stepAcquired state slot action
  | none => stepIdle state action

def start : TableState where
  table := ConnectionTable.new
  acquired := none
  closing := []
  nextSerial := 0
  acquisitions := fun _ => 0
  created := []

def system : TransitionSystem TableState Action where
  initial := fun state => state = start
  step := step

end Table

end AsyncFlow
