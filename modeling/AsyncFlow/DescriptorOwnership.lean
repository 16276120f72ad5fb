import AsyncFlow.DescriptorCustody

/-!
# Descriptors with one holder

A step passes descriptors between holders, takes a new one, or closes one and
reports the failure at most once.
-/

namespace AsyncFlow

open List AcceptState

open Table (Tidy)

/-- What a frame promises: `handle_listener` has no failed `create_connection`
below it, and commands go to shards that exist. -/
def AcceptFrame.Honest (config : AcceptConfig) : AcceptFrame → Prop
  | .handleListener _ _ (.create _ phase) => phase = .starting ∨ phase = .accepted
  | .handleListener _ _ (.enqueue _ target phase) =>
    phase = .creating ∨ target < config.shardCount
  | .handleListener _ _ .idle | .drainCommands _ _ | .closeNow _ | .stopOnOwner _ | .callback =>
    True

theorem AcceptState.closeFd_eq (state : AcceptState) (fd : Nat) :
    state.closeFd fd = { state with closes := fun item => state.closes item + [fd].count item } := by
  have closes : Function.update state.closes fd (state.closes fd + 1) =
      fun item => state.closes item + [fd].count item := by
    funext item
    by_cases same : item = fd
    · simp [same]
    · simp [same, Ne.symm same]
  rw [closeFd, closes]

namespace Accept

variable {config : AcceptConfig} {state : AcceptState} {index fd : Nat} {shard : AcceptShard}

def HonestStack (config : AcceptConfig) (stack : List AcceptFrame) : Prop :=
  ∀ frame ∈ stack, frame.Honest config

structure ShardInv (config : AcceptConfig) (shard : AcceptShard) : Prop where
  tidy : Tidy shard.slots
  honest : HonestStack config shard.stack

structure Inv (config : AcceptConfig) (state : AcceptState) : Prop where
  custody : Custody state.returned state.closes state.reports (holders config state)
  future : ∀ call, state.accepts ≤ call → state.returned call = false ∧ state.reports call = 0
  shards : ∀ index, ShardInv config (state.shards index)
  alive : state.destroyed = false

section

variable (inv : Inv config state)

include inv

theorem shards_withShard (shardInv : ShardInv config shard)
    (index other : Nat) : ShardInv config ((state.withShard index shard).shards other) := by
  by_cases same : other = index
  · subst same
    simpa [withShard] using shardInv
  · simpa [withShard, same] using inv.shards other

section

variable (inside : index < config.shardCount) (shardInv : ShardInv config shard)

include inside shardInv

theorem Inv.settle (closed : List Nat)
    (gives : ∀ item, shard.holds item + closed.count item = (state.shards index).holds item) :
    Inv config { state.withShard index shard with
      closes := fun item => state.closes item + closed.count item } where
  custody := inv.custody.move (fun _ => Nat.le_add_right _ _) fun item => by
    have counted := holders_withShard state inside shard item
    have given := gives item
    change state.closes item + closed.count item + holders config (state.withShard index shard) item =
      state.closes item + holders config state item
    omega
  future := inv.future
  shards := shards_withShard inv shardInv index
  alive := inv.alive

theorem Inv.keep (same : ∀ item, shard.holds item = (state.shards index).holds item) :
    Inv config (state.withShard index shard) :=
  inv.settle inside shardInv [] same

theorem Inv.close (gives : ∀ item, shard.holds item + (if fd = item then 1 else 0) =
      (state.shards index).holds item) : Inv config ((state.withShard index shard).closeFd fd) := by
  rw [closeFd_eq]
  refine inv.settle inside shardInv [fd] fun item => ?_
  simpa only [count_singleton, beq_iff_eq] using gives item

end

theorem Inv.report {call : Nat} (below : call < state.accepts)
    (unheld : holders config state call = 0) (unreported : state.reports call = 0) :
    Inv config (state.reportError call) where
  custody := inv.custody.report unheld unreported
  future := fun other later => by
    have later : state.accepts ≤ other := later
    have different : other ≠ call := by omega
    simpa [reportError, different] using inv.future other later
  shards := inv.shards
  alive := inv.alive

theorem Inv.closeAndReport (inside : index < config.shardCount) (shardInv : ShardInv config shard)
    (gives : ∀ item, shard.holds item + (if fd = item then 1 else 0) =
      (state.shards index).holds item) :
    Inv config (((state.withShard index shard).closeFd fd).reportError fd) := by
  have closed := inv.close inside shardInv gives
  have counted := holders_withShard state inside shard fd
  have given := gives fd
  rw [if_pos rfl] at given
  have held : holders config state fd ≠ 0 := by omega
  have balance := inv.custody.balance fd
  have isTaken : state.returned fd = true := by
    by_contra unknown
    rw [if_neg unknown] at balance
    omega
  rw [if_pos isTaken] at balance
  refine closed.report ?_ ?_ ?_
  · by_contra later
    have unknown := (inv.future fd (Nat.le_of_not_lt later)).1
    rw [isTaken] at unknown
    cases unknown
  · change holders config (state.withShard index shard) fd = 0
    omega
  · exact inv.custody.unreported held

theorem Inv.pass {target : Nat} {given left : AcceptShard}
    (isTarget : target < config.shardCount) (inside : index < config.shardCount)
    (givenInv : ShardInv config given) (leftInv : ShardInv config left)
    (gains : ∀ item, given.holds item =
      (state.shards target).holds item + if fd = item then 1 else 0)
    (loses : ∀ item, left.holds item + (if fd = item then 1 else 0) =
      ((state.withShard target given).shards index).holds item) :
    Inv config ((state.withShard target given).withShard index left) where
  custody := inv.custody.move (fun _ => le_rfl) fun item => by
    have gained := holders_withShard state isTarget given item
    have lost := holders_withShard (state.withShard target given) inside left item
    have grows := gains item
    have shrinks := loses item
    change state.closes item + holders config _ item = state.closes item + _
    omega
  future := inv.future
  shards := fun other => by
    have passed := shards_withShard inv givenInv target
    by_cases same : other = index
    · subst same
      simpa [withShard] using leftInv
    · simpa [withShard, same] using passed other
  alive := inv.alive

theorem Inv.take (inside : index < config.shardCount) (shardInv : ShardInv config shard)
    (takes : ∀ item, shard.holds item =
      (state.shards index).holds item + if state.accepts = item then 1 else 0) :
    Inv config { state.withShard index shard with
      accepts := state.accepts + 1
      returned := Function.update state.returned state.accepts true } where
  custody := by
    obtain ⟨unknown, unreported⟩ := inv.future state.accepts le_rfl
    refine inv.custody.take unknown unreported fun item => ?_
    have counted := holders_withShard state inside shard item
    have taken := takes item
    change holders config (state.withShard index shard) item = _
    omega
  future := fun call later => by
    have later : state.accepts + 1 ≤ call := later
    have different : call ≠ state.accepts := by omega
    simpa [withShard, different] using inv.future call (by omega)
  shards := shards_withShard inv shardInv index
  alive := inv.alive

end

/-! ### Routing -/

variable {listener accepted target : Nat} {routing next : Routing} {rest : List AcceptFrame}
  {frame : AcceptFrame}

theorem ShardInv.withStack (inv : ShardInv config shard) (top : shard.stack = frame :: rest)
    (frames : List AcceptFrame) (honest : HonestStack config frames) :
    ShardInv config { shard with stack := frames ++ rest } := by
  refine ⟨inv.tidy, fun other inside => ?_⟩
  rcases mem_append.mp inside with isNew | isOld
  · exact honest other isNew
  · exact inv.honest other (top ▸ mem_cons_of_mem _ isOld)

theorem honestStack_cons {frames : List AcceptFrame} :
    HonestStack config (frame :: frames) ↔ frame.Honest config ∧ HonestStack config frames :=
  forall_mem_cons

theorem honestStack_nil : HonestStack config [] :=
  fun _ inside => absurd inside not_mem_nil

theorem holds_withStack (top : shard.stack = frame :: rest) (frames : List AcceptFrame)
    (item : Nat) : { shard with stack := frames ++ rest }.holds item + frame.carries.count item =
      shard.holds item + (frames.flatMap AcceptFrame.carries).count item := by
  have connections : { shard with stack := frames ++ rest }.connectionsWith item =
      shard.connectionsWith item := rfl
  simp only [AcceptShard.holds, top, flatMap_append, flatMap_cons, count_append, connections]
  omega

section

variable (inv : Inv config state) (inside : index < config.shardCount)
  (top : (state.shards index).stack = .handleListener listener accepted routing :: rest)

include inv inside top

theorem inv_reroute {count : Nat} (same : next.carries = routing.carries)
    (honest : (AcceptFrame.handleListener listener count next).Honest config) :
    Inv config (reroute state index listener count next rest) := by
  refine inv.keep inside ((inv.shards index).withStack top [.handleListener listener count next]
    (honestStack_cons.mpr ⟨honest, honestStack_nil⟩)) fun item => ?_
  have counted := holds_withStack top [.handleListener listener count next] item
  simp only [flatMap_cons, flatMap_nil, append_nil,
    AcceptFrame.carries_handleListener, same] at counted
  exact Nat.add_right_cancel counted

theorem inv_proceed (none : routing.carries = [])
    : Inv config (proceed state index listener accepted rest) :=
  inv_reroute inv inside top (show Routing.idle.carries = _ from none.symm) trivial

theorem inv_refuse (one : routing.carries = [fd])
    : Inv config (refuse state index listener accepted fd rest) := by
  refine inv.closeAndReport inside ((inv.shards index).withStack top
    [.callback, .handleListener listener (accepted + 1) .idle]
    (honestStack_cons.mpr ⟨trivial, honestStack_cons.mpr ⟨trivial, honestStack_nil⟩⟩))
    fun item => ?_
  have counted := holds_withStack top
    [.callback, .handleListener listener (accepted + 1) .idle] item
  simpa [one, count_cons] using counted

end

end Accept

end AsyncFlow
