import AsyncFlow.ServerControl

/-!
# A server and its shards

The operations of a server, the tasks that its shards run, and the connections
that its listeners accept and pass on to other shards.
-/

namespace AsyncFlow

open Function

namespace ServerState

variable (config : ServerConfig) (env : ControlEnv)

/-! ### Operations of the control thread -/

def markListenerFailed (state : ServerState) (entry : ListenerEntry) : ServerState :=
  state.setEntry entry.id.slot (clearProgress entry .failed [])

def scheduleAdds (entry : ListenerEntry) (attempt : Nat) :
    List Nat → ServerState → Bool × ServerState
  | [], state => (true, state)
  | shard :: shards, state =>
    if env.accepts entry.id.slot shard then
      scheduleAdds entry attempt shards (state.schedule shard
        (.addListener entry.id (shard ∈ entry.config.openShards)
          (entry.config.targetShards shard) attempt))
    else (false, state.handleListenerStartResult config env entry.id shard false)

def beginAttempt (state : ServerState) (entry : ListenerEntry) : ServerState :=
  { state.setEntry entry.id.slot
      { entry with
        phase := .starting
        activeShards := []
        startingShards := entry.config.installShards
        startedShards := []
        pendingStartShards := entry.config.installShards.length
        attempt := some state.attempts
        stopped := false } with
    attempts := state.attempts + 1 }

def startListenerSlot (state : ServerState) (slot : Nat) : Bool × ServerState :=
  match state.entryAt slot with
  | none => (false, state)
  | some entry =>
    if entry.phase = .active || entry.phase = .starting then (true, state)
    else if !state.running then (false, state)
    else if env.startFails slot || entry.config.installShards.isEmpty then
      (false, state.markListenerFailed entry)
    else scheduleAdds config env entry state.attempts entry.config.installShards
      (state.beginAttempt entry)

def startSlots : List Nat → ServerState → Bool × ServerState
  | [], state => (true, state)
  | slot :: slots, state =>
    let (ok, started) := startListenerSlot config env state slot
    let (rest, final) := startSlots slots started
    (ok && rest, final)

def startable (state : ServerState) : List Nat :=
  (List.range state.listeners.length).filter fun slot =>
    (state.entryAt slot).any fun entry => entry.phase = .configured || entry.phase = .failed

def start (state : ServerState) : Bool × ServerState :=
  if state.running then (true, state)
  else if env.fails then (false, state)
  else startSlots config env state.startable { state with running := true }

def stopEntry (entry : ListenerEntry) : ListenerEntry :=
  let active :=
    if env.growFails then []
    else entry.activeShards ++ entry.startedShards.filter (· ∉ entry.activeShards)
  { clearProgress entry .configured active with stopped := true }

def scheduleStops (shards : List Nat) (state : ServerState) : ServerState :=
  shards.foldl (fun state shard =>
    if env.accepts 0 shard then state.schedule shard .stop else state) state

def stop (state : ServerState) : Bool × ServerState :=
  if !state.running then (true, state)
  else if env.fails then (false, state)
  else
    let stopped := { state with
      running := false
      listeners := state.listeners.map (·.map (stopEntry env)) }
    let shards := List.range config.threadCount
    (shards.all (env.accepts 0), scheduleStops env shards stopped)

def removeListener (state : ServerState) (id : ListenerId) (policy : RemoveListenerPolicy) :
    Bool × ServerState :=
  match state.entryAt id.slot with
  | none => (false, state)
  | some entry =>
    if entry.id ≠ id || env.fails then (false, state)
    else
      let shards := entry.activeShards ++ entry.startedShards.filter (· ∉ entry.activeShards)
      (true, (state.releaseListenerSlot id.slot env.freeFails).scheduleRemoveListenerFromShards
        config env id shards policy)

def newEntry (id : ListenerId) (listener : ListenerConfig) : ListenerEntry where
  id := id
  config := listener
  phase := .configured
  activeShards := []
  startingShards := []
  startedShards := []
  pendingStartShards := 0
  attempt := none
  stopped := false

def storeEntry (state : ServerState) (listener : ListenerConfig) : ListenerId × ServerState :=
  let (id, acquired) := state.acquireListenerSlot
  (id, acquired.setEntry id.slot (newEntry id listener))

def addListener (state : ServerState) (listener : ListenerConfig) : Option ListenerId × ServerState :=
  if !listener.validate config || env.fails then (none, state)
  else
    let (id, stored) := state.storeEntry listener
    if !state.running then (some id, stored)
    else
      let (ok, started) := startListenerSlot config env stored id.slot
      if ok then (some id, started)
      else if (started.entryAt id.slot).any (·.id = id) then
        (none, started.releaseListenerSlot id.slot env.freeFails)
      else (none, started)

def withShard (state : ServerState) (index : Nat) (shard : ServerShard) : ServerState :=
  { state with shards := update state.shards index shard }

def findListener (state : ServerState) (shard : Nat) (id : ListenerId) : Option ShardListener :=
  ((state.shards shard).listeners id.slot).filter (·.id = id)

def addListenerOnOwner (state : ServerState) (index : Nat) (listener : ShardListener)
    (opens : Bool) : Bool × ServerState :=
  let shard := state.shards index
  if opens && (shard.listeners listener.id.slot).isNone then
    (true, state.withShard index { shard with
      listeners := update shard.listeners listener.id.slot (some listener) })
  else (false, state)

def removeListenerOnOwner (state : ServerState) (index : Nat) (id : ListenerId)
    (policy : RemoveListenerPolicy) : ServerState :=
  let shard := state.shards index
  state.withShard index
    { listeners :=
        if (state.findListener index id).isSome then update shard.listeners id.slot none
        else shard.listeners
      connections :=
        if policy = .closeExistingConnections then shard.connections.filter (· ≠ id)
        else shard.connections }

/-- `stop_on_owner`, which also discards the connections sent to the shard. -/
def stopOnOwner (state : ServerState) (index : Nat) : ServerState :=
  { state.withShard index ⟨fun _ => none, []⟩ with
    adoptions := fun source => update (state.adoptions source) index [] }

/-- A shard reports the result of a start; unless it is the control thread the runtime
may refuse the task. -/
def completeListenerStart (state : ServerState) (index : Nat) (result : StartResult)
    (accepted : Bool) : ServerState :=
  let reported := { state with reports := state.reports ++ [⟨index, result⟩] }
  if index = config.controlThread then
    reported.handleListenerStartResult config env result.id index result.succeeded
  else if accepted then
    { reported with
      results := update reported.results index (reported.results index ++ [result]) }
  else reported

def runTask (state : ServerState) (index : Nat) (opens accepted : Bool) : ShardTask → ServerState
  | .addListener id openListener targetShards attempt =>
    let (succeeded, added) :=
      state.addListenerOnOwner index ⟨id, openListener, targetShards⟩ opens
    added.completeListenerStart config env index ⟨id, succeeded, attempt⟩ accepted
  | .removeListener id policy => state.removeListenerOnOwner index id policy
  | .stop => state.stopOnOwner index

def addConnection (state : ServerState) (index : Nat) (id : ListenerId) : ServerState :=
  state.withShard index { state.shards index with
    connections := (state.shards index).connections ++ [id] }

/-- An open listener accepts a connection, which stays on the shard or is sent to
another one; if that fails it is closed. -/
def acceptConnection (state : ServerState) (index : Nat) (listener : ShardListener) (target : Nat)
    (succeeds : Bool) : ServerState :=
  if !succeeds then state
  else if target = index then state.addConnection index listener.id
  else
    { state with
      adoptions := update state.adoptions index
        (update (state.adoptions index) target (state.adoptions index target ++ [listener.id])) }

/-- A shard adopts a connection, if it has the listener, or closes it. -/
def adoptConnection (state : ServerState) (index : Nat) (id : ListenerId) (creates : Bool) :
    ServerState :=
  if (state.findListener index id).isSome && creates then state.addConnection index id else state

end ServerState

namespace Server

inductive Action
  | addListener (listener : ListenerConfig) (env : ControlEnv)
  | removeListener (id : ListenerId) (policy : RemoveListenerPolicy) (env : ControlEnv)
  | start (env : ControlEnv)
  | stop (env : ControlEnv)
  | handleResult (shard : Nat) (env : ControlEnv)
  | runTask (shard : Nat) (opens accepted : Bool) (env : ControlEnv)
  | accept (shard slot target : Nat) (succeeds : Bool)
  | adopt (source target : Nat) (creates : Bool)
  | close (shard : Nat) (id : ListenerId)

def step (config : ServerConfig) (state : ServerState) : Action → Option ServerState
  | .addListener listener env => some (state.addListener config env listener).2
  | .removeListener id policy env => some (state.removeListener config env id policy).2
  | .start env => some (state.start config env).2
  | .stop env => some (state.stop config env).2
  | .handleResult shard env =>
    match state.results shard with
    | result :: results =>
      let taken := { state with results := update state.results shard results }
      some (taken.handleListenerStartResult config env result.id shard result.succeeded)
    | [] => none
  | .runTask shard opens accepted env =>
    match state.tasks shard with
    | task :: tasks =>
      let taken := { state with tasks := update state.tasks shard tasks }
      some (taken.runTask config env shard opens accepted task)
    | [] => none
  | .accept shard slot target succeeds =>
    match (state.shards shard).listeners slot with
    | some listener =>
      if listener.openListener && target < config.threadCount &&
          (if listener.targetShards = [] then target = shard
            else target ∈ listener.targetShards) then
        some (state.acceptConnection shard listener target succeeds)
      else none
    | none => none
  | .adopt source target creates =>
    match state.adoptions source target with
    | id :: ids =>
      let taken := { state with
        adoptions := update state.adoptions source (update (state.adoptions source) target ids) }
      some (taken.adoptConnection target id creates)
    | [] => none
  | .close shard id =>
    if id ∈ (state.shards shard).connections then
      some (state.withShard shard { state.shards shard with
        connections := (state.shards shard).connections.erase id })
    else none

def Connects (state after : ServerState) : Prop :=
  ∃ adoptions, after = { state with adoptions := adoptions } ∨ ∃ shard slot listener,
    (state.shards shard).listeners slot = some listener ∧
      after = { state with adoptions := adoptions }.addConnection shard listener.id

variable {config : ServerConfig} {state after : ServerState} {target : Nat}

theorem findListener_eq_some {shard : Nat} {id : ListenerId} {listener : ShardListener} :
    state.findListener shard id = some listener ↔
      (state.shards shard).listeners id.slot = some listener ∧ listener.id = id := by
  simp [ServerState.findListener, Option.filter_eq_some_iff]

theorem connects_accept {shard slot : Nat} {succeeds : Bool}
    (steps : step config state (.accept shard slot target succeeds) = some after) :
    Connects state after := by
  simp only [step] at steps
  split at steps
  next listener installed =>
    obtain ⟨-, accepts⟩ := Option.ite_none_right_eq_some.mp steps
    cases accepts
    unfold ServerState.acceptConnection
    split
    · exact ⟨state.adoptions, .inl rfl⟩
    split
    · exact ⟨state.adoptions, .inr ⟨shard, slot, listener, installed, rfl⟩⟩
    · exact ⟨_, .inl rfl⟩
  · cases steps

theorem connects_adopt {source : Nat} {creates : Bool}
    (steps : step config state (.adopt source target creates) = some after) :
    Connects state after := by
  simp only [step] at steps
  split at steps
  next id ids queue =>
    cases steps
    unfold ServerState.adoptConnection
    split
    next found =>
      obtain ⟨listener, isFound⟩ := Option.isSome_iff_exists.mp (Bool.and_eq_true_iff.mp found).1
      obtain ⟨installed, rfl⟩ := findListener_eq_some.mp isFound
      exact ⟨_, .inr ⟨target, _, listener, installed, rfl⟩⟩
    · exact ⟨_, .inl rfl⟩
  · cases steps

def initial : ServerState where
  running := false
  listeners := []
  listenerGenerations := []
  freeListenerSlots := []
  shards := fun _ => ⟨fun _ => none, []⟩
  tasks := fun _ => []
  results := fun _ => []
  adoptions := fun _ _ => []
  attempts := 0
  reports := []

def system (config : ServerConfig) : TransitionSystem ServerState Action where
  initial := fun state => state = initial
  step := step config

def threeThreads : ServerConfig where
  threadCount := 3
  isIoThread := fun _ => true

def onTwoThreads : ListenerConfig where
  threads := [1, 2]
  acceptStrategy := .auto
  isUnix := false
  reusePort := true
  backlog := 1024
  acceptBudget := 16
  readBudgetBytes := 65536
  outputHighWatermark := 65536

end Server

end AsyncFlow
