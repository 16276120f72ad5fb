import Mathlib.Algebra.Group.Nat.Defs
import Mathlib.Data.List.Induction

/-!
# The batch sequencer

Batches that arrive in any order, some more than once, are passed on in the order
of their ids; one that is early waits in a map.
-/

namespace AsyncFlow

open List

variable {Batch : Type*}

structure BatchSequencer (Batch : Type*) where
  nextBatchId : Nat
  pending : List (Nat × Batch) := []
  submitted : List Batch := []

inductive BatchSubmitStatus
  | submitted | buffered | duplicate
  deriving DecidableEq

namespace BatchSequencer

def submitReady (sequencer : BatchSequencer Batch) (batch : Batch) : BatchSequencer Batch :=
  { sequencer with
    submitted := sequencer.submitted ++ [batch]
    nextBatchId := (sequencer.nextBatchId + 1) % 2 ^ 64 }

/-- Each turn of the loop erases an entry, so there are at most as many as entries. -/
def drainReady : Nat → BatchSequencer Batch → BatchSequencer Batch
  | 0, sequencer => sequencer
  | turns + 1, sequencer =>
    match sequencer.pending.lookup sequencer.nextBatchId with
    | none => sequencer
    | some batch =>
      drainReady turns ({ sequencer with
            pending := sequencer.pending.filter (·.1 != sequencer.nextBatchId) }.submitReady batch)

def submit (sequencer : BatchSequencer Batch) (batchId : Nat) (batch : Batch) :
    BatchSequencer Batch × BatchSubmitStatus :=
  if batchId < sequencer.nextBatchId then (sequencer, .duplicate)
  else if sequencer.nextBatchId < batchId then
    match sequencer.pending.lookup batchId with
    | some _ => (sequencer, .duplicate)
    | none => ({ sequencer with pending := (batchId, batch) :: sequencer.pending }, .buffered)
  else ((sequencer.submitReady batch).drainReady sequencer.pending.length, .submitted)

def submitAll (firstBatchId : Nat) (calls : List (Nat × Batch)) : BatchSequencer Batch :=
  calls.foldl (fun sequencer call => (sequencer.submit call.1 call.2).1)
    { nextBatchId := firstBatchId }

/-- The first batch that came for each id before `nextBatchId` was passed on, and those
from it on are buffered. -/
structure Holds (first : Nat) (calls : List (Nat × Batch)) (sequencer : BatchSequencer Batch) :
    Prop where
  first_le : first ≤ sequencer.nextBatchId
  submitted : sequencer.submitted.map some =
    (List.range' first (sequencer.nextBatchId - first)).map (calls.lookup ·)
  pending : ∀ id, sequencer.pending.lookup id =
    if sequencer.nextBatchId ≤ id then calls.lookup id else none

variable {first : Nat} {calls : List (Nat × Batch)} {sequencer : BatchSequencer Batch}
  {id : Nat} {batch : Batch}

theorem lookup_filter_ne (entries : List (Nat × Batch)) (id other : Nat) :
    (entries.filter (·.1 != id)).lookup other =
      if other = id then none else entries.lookup other := by
  induction entries with
  | nil => simp
  | cons entry entries ih => grind

theorem length_filter_ne {entries : List (Nat × Batch)} (found : entries.lookup id = some batch) :
    (entries.filter (·.1 != id)).length < entries.length := by
  induction entries with
  | nil => simp at found
  | cons entry entries ih => grind

theorem Holds.submitReady {before : List (Nat × Batch)} (holds : Holds first before sequencer)
    (kept : sequencer.submitted.map some =
      (List.range' first (sequencer.nextBatchId - first)).map (calls.lookup ·))
    (came : calls.lookup sequencer.nextBatchId = some batch)
    (fits : sequencer.nextBatchId + 1 < 2 ^ 64) (pending : List (Nat × Batch))
    (erased : ∀ id, pending.lookup id =
      if sequencer.nextBatchId + 1 ≤ id then calls.lookup id else none) :
    Holds first calls ({ sequencer with pending := pending }.submitReady batch) := by
  have below := holds.first_le
  have next : (sequencer.nextBatchId + 1) % 2 ^ 64 = sequencer.nextBatchId + 1 :=
    Nat.mod_eq_of_lt fits
  refine ⟨?_, ?_, ?_⟩
  · simp only [BatchSequencer.submitReady, next]
    omega
  · simp only [BatchSequencer.submitReady, next, map_append, kept,
      Nat.sub_add_comm below, List.range'_concat, Nat.one_mul, Nat.add_sub_cancel' below,
      map_cons, map_nil, came]
  · simpa only [BatchSequencer.submitReady, next] using erased

theorem Holds.drainReady {turns : Nat} (holds : Holds first calls sequencer)
    (fits : ∀ id batch, calls.lookup id = some batch → id + 1 < 2 ^ 64)
    (enough : sequencer.pending.length ≤ turns) : Holds first calls (sequencer.drainReady turns) ∧
      calls.lookup (sequencer.drainReady turns).nextBatchId = none := by
  induction turns generalizing sequencer with
  | zero =>
    refine ⟨holds, ?_⟩
    have waiting := holds.pending sequencer.nextBatchId
    rw [eq_nil_of_length_eq_zero (Nat.le_zero.mp enough)] at waiting
    simpa [BatchSequencer.drainReady] using waiting.symm
  | succ turns ih =>
    have waiting := holds.pending sequencer.nextBatchId
    rw [if_pos (Nat.le_refl _)] at waiting
    unfold BatchSequencer.drainReady
    split
    · rename_i nothing
      exact ⟨holds, waiting ▸ nothing⟩
    · rename_i batch found
      have shorter := length_filter_ne found
      apply ih
      · apply holds.submitReady holds.submitted (waiting ▸ found) (fits _ _ (waiting ▸ found))
        intro id
        rw [lookup_filter_ne, holds.pending]
        grind
      · exact Nat.le_of_lt_succ (Nat.lt_of_lt_of_le shorter enough)

theorem Holds.submitted_append (holds : Holds first calls sequencer) (later : List (Nat × Batch)) :
    sequencer.submitted.map some =
      (List.range' first (sequencer.nextBatchId - first)).map ((calls ++ later).lookup ·) := by
  rw [holds.submitted]
  apply map_congr_left
  intro id inside
  have passed : calls.lookup id ∈ sequencer.submitted.map some := by
    rw [holds.submitted]
    exact mem_map_of_mem inside
  obtain ⟨batch, -, found⟩ := mem_map.mp passed
  rw [lookup_append, ← found, Option.some_or]

theorem Holds.submit (holds : Holds first calls sequencer)
    (missing : calls.lookup sequencer.nextBatchId = none)
    (fits : ∀ call ∈ calls ++ [(id, batch)], call.1 + 1 < 2 ^ 64) :
    Holds first (calls ++ [(id, batch)]) (sequencer.submit id batch).1 ∧
      (calls ++ [(id, batch)]).lookup (sequencer.submit id batch).1.nextBatchId = none := by
  have kept := holds.submitted_append [(id, batch)]
  have waiting := holds.pending
  have added : ∀ other, (calls ++ [(id, batch)]).lookup other =
      if calls.lookup other = none ∧ other = id then some batch else calls.lookup other := by
    intro other
    rw [lookup_append]
    cases calls.lookup other <;> grind
  have bounded : ∀ other batch', (calls ++ [(id, batch)]).lookup other = some batch' →
      other + 1 < 2 ^ 64 := by
    intro other batch' found
    obtain ⟨before, after, split, -⟩ := lookup_eq_some_iff.mp found
    exact fits (other, batch') (by simp [split])
  generalize calls ++ [(id, batch)] = later at *
  unfold BatchSequencer.submit
  split
  · exact ⟨⟨holds.first_le, kept, by grind⟩, by grind⟩
  split
  · split
    · exact ⟨⟨holds.first_le, kept, by grind⟩, by grind⟩
    · exact ⟨⟨holds.first_le, kept, by grind⟩, by grind⟩
  · obtain rfl : id = sequencer.nextBatchId := by omega
    have came : later.lookup sequencer.nextBatchId = some batch := by grind
    have ready := holds.submitReady kept came (bounded _ _ came) sequencer.pending (by grind)
    exact ready.drainReady bounded (Nat.le_refl _)

theorem holds_submitAll (first : Nat) {calls : List (Nat × Batch)}
    (fits : ∀ call ∈ calls, call.1 + 1 < 2 ^ 64) : Holds first calls (submitAll first calls) ∧
      calls.lookup (submitAll first calls).nextBatchId = none := by
  induction calls using List.reverseRecOn with
  | nil => exact ⟨⟨Nat.le_refl _, by simp [submitAll], fun id => (ite_self _).symm⟩, rfl⟩
  | append_singleton calls call ih =>
    obtain ⟨holds, missing⟩ := ih fun call inside => fits call (by simp [inside])
    rw [submitAll, foldl_append]
    exact holds.submit missing fits

/-- The batches are passed on in the order of their ids, each id once with the batch that
came first, up to the first id that did not come. -/
theorem sequencer_reorders (first : Nat) (calls : List (Nat × Batch))
    (fits : ∀ call ∈ calls, call.1 + 1 < 2 ^ 64) : Holds first calls (submitAll first calls) ∧
      calls.lookup (submitAll first calls).nextBatchId = none ∧
      ∀ id batch, ((submitAll first calls).submit id batch).2 =
        if id < (submitAll first calls).nextBatchId ∨
            ((submitAll first calls).pending.lookup id).isSome then .duplicate
        else if id = (submitAll first calls).nextBatchId then .submitted
        else .buffered := by
  obtain ⟨holds, missing⟩ := holds_submitAll first fits
  refine ⟨holds, missing, ?_⟩
  intro id batch
  have waiting := holds.pending id
  unfold submit
  grind

theorem sequencer_reorders_late :
    (submitAll 1 [(3, 'c'), (2, 'b'), (1, 'a'), (2, 'x')]).submitted = ['a', 'b', 'c'] ∧
      Holds 1 [(3, 'c'), (2, 'b'), (1, 'a'), (2, 'x')]
        (submitAll 1 [(3, 'c'), (2, 'b'), (1, 'a'), (2, 'x')]) :=
  ⟨by decide, (sequencer_reorders 1 _ (by decide)).1⟩

end BatchSequencer

end AsyncFlow
