import Mathlib.Data.List.Perm.Basic
import Mathlib.Logic.Function.Basic

/-!
# Sharded operations

A list of operations is split into shards by a key.  Operations on one key are all in
one shard, in their order, so that the shards can run in any interleaving.
-/

namespace AsyncFlow

open Function List

section Interleavings

variable {Op Key Value : Type*}

/-- A list that takes the operations of all shards, each shard in its order. -/
inductive Interleaves : (Nat → List Op) → List Op → Prop
  | done {shards : Nat → List Op} (empty : ∀ shard, shards shard = []) : Interleaves shards []
  | take {shards : Nat → List Op} {shard : Nat} {op : Op} {rest order : List Op}
      (first : shards shard = op :: rest) (later : Interleaves (update shards shard rest) order) :
      Interleaves shards (op :: order)

theorem Interleaves.filter_eq {shards : Nat → List Op} {order : List Op} {shardOf : Op → Nat}
    (interleaves : Interleaves shards order)
    (sorted : ∀ shard, ∀ op ∈ shards shard, shardOf op = shard) (shard : Nat) :
    order.filter (shardOf · = shard) = shards shard := by
  induction interleaves with
  | done empty => simp [empty]
  | @take shards chosen op rest order first later ih =>
    have chosenOp : shardOf op = chosen := sorted chosen op (by simp [first])
    have restSorted : ∀ shard, ∀ op ∈ update shards chosen rest shard, shardOf op = shard := by
      intro shard op inside
      by_cases isChosen : shard = chosen
      · subst isChosen
        exact sorted shard op (by simp_all)
      · exact sorted shard op (by rwa [update_of_ne isChosen] at inside)
    rw [filter_cons, ih restSorted]
    by_cases isChosen : shard = chosen
    · simp [isChosen, chosenOp, first]
    · simp [isChosen, chosenOp, Ne.symm isChosen]

variable [DecidableEq Key]

/-- An operation changes the value of its own key, as a function of that value alone. -/
def applyOp (keyOf : Op → Key) (effect : Op → Value → Value) (state : Key → Value) (op : Op) :
    Key → Value :=
  update state (keyOf op) (effect op (state (keyOf op)))

theorem foldl_applyOp (keyOf : Op → Key) (effect : Op → Value → Value) (ops : List Op)
    (state : Key → Value) (key : Key) : ops.foldl (applyOp keyOf effect) state key =
      (ops.filter (keyOf · = key)).foldl (fun value op => effect op value) (state key) := by
  induction ops generalizing state with
  | nil => rfl
  | cons op ops ih =>
    rw [foldl_cons, ih, filter_cons]
    by_cases own : keyOf op = key
    · simp [applyOp, own]
    · simp [applyOp, own, update_of_ne (Ne.symm own)]

end Interleavings

inductive OpType
  | add | update | delete
  deriving DecidableEq

structure CrudOp (Key Value : Type*) where
  type : OpType
  key : Key
  value : Value

variable {Op Key Value : Type*}

def shardIndex (shardCount : UInt16) (key : UInt64) : UInt16 :=
  (key % shardCount.toUInt64).toUInt16

def pushShard (shards : List (List Op)) (shard : UInt16) (op : Op) : List (List Op) :=
  shards.modify shard.toNat (· ++ [op])

/-- One pass over the operations finds their shards, and another one moves them there. -/
def splitByShard (ops : List Op) (shardCount : UInt16) (keyFn : Op → UInt64) : List (List Op) :=
  if shardCount = 0 then []
  else
    let shardIndexes := ops.map fun op => shardIndex shardCount (keyFn op)
    (ops.zip shardIndexes).foldl (fun shards entry => pushShard shards entry.2 entry.1)
      (List.replicate shardCount.toNat [])

def splitCrudOps (ops : List (CrudOp Key Value)) (shardCount : UInt16) (shardFn : Key → UInt64) :
    List (List (CrudOp Key Value)) :=
  if shardCount = 0 then []
  else
    ops.foldl (fun shards op => pushShard shards (shardIndex shardCount (shardFn op.key)) op)
      (List.replicate shardCount.toNat [])

theorem getElem?_foldl_pushShard (shardOf : Op → UInt16) (ops : List Op)
    (shards : List (List Op)) (shard : Nat) :
    (ops.foldl (fun shards op => pushShard shards (shardOf op) op) shards)[shard]? =
      shards[shard]?.map (· ++ ops.filter (fun op => (shardOf op).toNat = shard)) := by
  induction ops generalizing shards with
  | nil => simp
  | cons op ops ih =>
    rw [foldl_cons, ih, pushShard, getElem?_modify, filter_cons]
    by_cases own : (shardOf op).toNat = shard <;> cases shards[shard]? <;> simp [own]

theorem flatten_modify_perm (op : Op) {shards : List (List Op)} {shard : Nat}
    (inside : shard < shards.length) :
    (shards.modify shard (· ++ [op])).flatten.Perm (op :: shards.flatten) := by
  induction shards generalizing shard with
  | nil => simp at inside
  | cons first rest ih =>
    cases shard with
    | zero => simp
    | succ shard =>
      simp only [modify_succ_cons, flatten_cons]
      exact ((ih (by simpa using inside)).append_left first).trans perm_middle

theorem flatten_foldl_pushShard_perm {shardOf : Op → UInt16} {shards : List (List Op)}
    (ops : List Op) (inside : ∀ op, (shardOf op).toNat < shards.length) :
    (ops.foldl (fun shards op => pushShard shards (shardOf op) op) shards).flatten.Perm
      (shards.flatten ++ ops) := by
  induction ops generalizing shards with
  | nil => simp
  | cons op ops ih =>
    have later := @ih (pushShard shards (shardOf op) op) (by simpa [pushShard] using inside)
    have moved := (flatten_modify_perm op (inside op)).append_right ops
    exact (later.trans moved).trans perm_middle.symm

theorem splitByShard_eq (ops : List Op) (shardCount : UInt16) (keyFn : Op → UInt64) :
    splitByShard ops shardCount keyFn = if shardCount = 0 then []
      else ops.foldl (fun shards op => pushShard shards (shardIndex shardCount (keyFn op)) op)
        (List.replicate shardCount.toNat []) := by
  unfold splitByShard
  dsimp only
  rw [← map_prod_left_eq_zip, foldl_map]

theorem toNat_shardIndex {shardCount : UInt16} (positive : 0 < shardCount) (key : UInt64) :
    (shardIndex shardCount key).toNat = key.toNat % shardCount.toNat ∧
      (shardIndex shardCount key).toNat < shardCount.toNat := by
  rw [UInt16.lt_iff_toNat_lt, UInt16.toNat_zero] at positive
  have less := Nat.mod_lt key.toNat positive
  have bound := shardCount.toNat_lt
  simp only [shardIndex, UInt64.toNat_toUInt16, UInt64.toNat_mod, UInt16.toNat_toUInt64]
  omega

/-- Both splits give each operation to the shard of its key, in order, and the shards give
the state that the list gives, in every interleaving. -/
theorem sharding_preserves_semantics (shardCount : UInt16) :
    (∀ (ops : List (CrudOp Key Value)) (shardFn : Key → UInt64),
      splitCrudOps ops shardCount shardFn = splitByShard ops shardCount (shardFn ·.key)) ∧
    ∀ (ops : List Op) (keyOf : Op → Key) (keyFn : Key → UInt64), 0 < shardCount →
      let shards := splitByShard ops shardCount (fun op => keyFn (keyOf op))
      shards = (List.range shardCount.toNat).map (fun shard =>
        ops.filter fun op => (keyFn (keyOf op)).toNat % shardCount.toNat = shard) ∧
      shards.flatten.Perm ops ∧
      ∀ order, Interleaves (fun shard => shards[shard]?.getD []) order →
        ∀ [DecidableEq Key] (effect : Op → Value → Value) (state : Key → Value),
          order.foldl (applyOp keyOf effect) state = ops.foldl (applyOp keyOf effect) state := by
  refine ⟨fun ops shardFn => (splitByShard_eq ops shardCount _).symm, ?_⟩
  intro ops keyOf keyFn positive shards
  have shards_eq : shards = _ := splitByShard_eq ops shardCount _
  have index := fun op => toNat_shardIndex positive (keyFn (keyOf op))
  rw [if_neg (by rintro rfl; exact absurd positive (by decide))] at shards_eq
  have shard_eq : ∀ shard, shards[shard]? = if shard < shardCount.toNat then
      some (ops.filter fun op => (keyFn (keyOf op)).toNat % shardCount.toNat = shard)
      else none := by
    intro shard
    rw [shards_eq, getElem?_foldl_pushShard, getElem?_replicate]
    simp only [(index _).1]
    split <;> rfl
  refine ⟨?_, ?_, ?_⟩
  · apply ext_getElem?
    intro shard
    rw [shard_eq, getElem?_map]
    split <;> simp_all
  · have perm := @flatten_foldl_pushShard_perm _ _ (List.replicate shardCount.toNat []) ops
      (by simpa using fun op => (index op).2)
    simpa [shards_eq] using perm
  · intro order interleaves _ effect state
    have filters := @Interleaves.filter_eq _ _ _
      (fun op => (keyFn (keyOf op)).toNat % shardCount.toNat) interleaves (by grind)
    funext key
    rw [foldl_applyOp, foldl_applyOp]
    have own : ∀ list : List Op, list.filter (keyOf · = key) =
        (list.filter fun op => (keyFn (keyOf op)).toNat % shardCount.toNat =
          (keyFn key).toNat % shardCount.toNat).filter (keyOf · = key) := by
      intro list
      rw [filter_filter]
      apply filter_congr
      intro op _
      by_cases isKey : keyOf op = key <;> simp [isKey]
    have less := (toNat_shardIndex positive (keyFn key)).1 ▸ (toNat_shardIndex positive (keyFn key)).2
    rw [own order, own ops, filters, shard_eq, if_pos less, Option.getD_some]

end AsyncFlow
