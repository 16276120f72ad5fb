import AsyncFlow.ListenerEntries
import Mathlib.Logic.Relation

/-!
# Moves of the control thread

Every operation of the control thread is a sequence of a few moves.  The task of a
start is for a listener that has an entry, and for a shard on which it is to be
installed.
-/

namespace AsyncFlow

open List

/-- The shards of a listener while it starts, and while it is active. -/
structure ListenerEntry.Progress (entry : ListenerEntry) : Prop where
  starting : entry.phase = .starting → entry.startingShards = entry.config.installShards
  active : entry.phase = .active → entry.activeShards = entry.config.installShards

namespace ServerState

variable {config : ServerConfig} {env : ControlEnv} {state after : ServerState}
  {id : ListenerId} {entry : ListenerEntry} {slot shard : Nat}

def Slotted (state : ServerState) : Prop :=
  ∀ slot entry, state.entryAt slot = some entry → entry.id.slot = slot

inductive Move (config : ServerConfig) : ServerState → ServerState → Prop
  | setEntry {state : ServerState} {slot : Nat} {entry : ListenerEntry} (changed : ListenerEntry)
      (present : state.entryAt slot = some entry) (sameId : changed.id = entry.id)
      (sameConfig : changed.config = entry.config) (progress : entry.Progress → changed.Progress) :
      Move config state (state.setEntry slot changed)
  | halt {state : ServerState} (env : ControlEnv) : Move config state (state.halted env)
  | count {state : ServerState} (running : Bool) (attempts : Nat) :
      Move config state { state with running := running, attempts := attempts }
  | release {state : ServerState} (slot : Nat) (freeFails : Bool) :
      Move config state (state.releaseListenerSlot slot freeFails)
  | add {state : ServerState} {slot shard : Nat} {entry : ListenerEntry}
      (present : state.entryAt slot = some entry)
      (installed : shard ∈ entry.config.installShards) (openListener : Bool)
      (targets : List Nat) (attempt : Nat) : Move config state
        (state.schedule shard (.addListener entry.id openListener targets attempt))
  | task {state : ServerState} {shard : Nat} (task : ShardTask)
      (unrelated : ∀ id, task.startMessage id = none) (inside : shard < config.threadCount) :
      Move config state (state.schedule shard task)

def Moves (config : ServerConfig) : ServerState → ServerState → Prop :=
  Relation.ReflTransGen (Move config)

namespace Moves

theorem refl (state : ServerState) : Moves config state state := Relation.ReflTransGen.refl

theorem single (move : Move config state after) : Moves config state after :=
  Relation.ReflTransGen.single move

theorem trans {middle : ServerState} (first : Moves config state middle)
    (second : Moves config middle after) : Moves config state after :=
  Relation.ReflTransGen.trans first second

theorem scheduleRemove (policy : RemoveListenerPolicy) :
    Moves config state (state.scheduleRemoveListenerFromShard config env id policy shard) := by
  unfold scheduleRemoveListenerFromShard
  split
  next accepted =>
    simp only [Bool.and_eq_true, decide_eq_true_eq] at accepted
    exact single (.task _ (fun _ => rfl) accepted.1)
  · exact refl state

theorem scheduleRemoves (shards : List Nat) (policy : RemoveListenerPolicy) :
    Moves config state (state.scheduleRemoveListenerFromShards config env id shards policy) := by
  induction shards generalizing state with
  | nil => exact refl state
  | cons shard shards ih => exact (scheduleRemove policy).trans ih

theorem settle (present : state.entryAt slot = some entry) (phase : ListenerPhase)
    (active : List Nat) (notStarting : phase ≠ .starting) (notActive : phase ≠ .active) :
    Moves config state (state.setEntry slot (clearProgress entry phase active)) :=
  single (.setEntry _ present rfl rfl fun _ =>
    ⟨fun isStarting => absurd isStarting notStarting, fun isActive => absurd isActive notActive⟩)

theorem failStart (present : state.entryAt entry.id.slot = some entry) (started : List Nat) :
    Moves config state (state.failStart config env entry started) :=
  (settle present .failed [] nofun nofun).trans (scheduleRemoves _ _)

theorem countStarted (present : state.entryAt entry.id.slot = some entry)
    (isStarting : entry.phase = .starting) :
    Moves config state (state.countStarted config env entry shard) := by
  unfold ServerState.countStarted
  split
  · exact failStart present _
  dsimp only
  split
  · exact single (.setEntry _ present rfl rfl fun progress =>
      ⟨progress.starting, fun isActive => absurd (isStarting.symm.trans isActive) nofun⟩)
  split
  · exact failStart present _
  split
  · exact single (.setEntry _ present rfl rfl fun progress =>
      ⟨nofun, fun _ => progress.starting isStarting⟩)
  · exact (settle present .configured [] nofun nofun).trans (scheduleRemoves _ _)

theorem handle (slotted : Slotted state) (succeeded : Bool) :
    Moves config state (state.handleListenerStartResult config env id shard succeeded) := by
  have unexpected : Moves config state (if succeeded then
      state.scheduleRemoveListenerFromShard config env id .stopAcceptOnly shard else state) := by
    split
    · exact scheduleRemove _
    · exact refl state
  unfold handleListenerStartResult
  dsimp only
  split
  · exact refl state
  cases present : state.entryAt id.slot with
  | none => exact unexpected
  | some entry =>
    dsimp only
    split
    · exact unexpected
    next expected =>
      have isStarting : entry.phase = .starting := by
        simp only [ne_eq, decide_not, Bool.or_eq_true, not_or, Bool.not_eq_true',
          decide_eq_false_iff_not, Decidable.not_not] at expected
        exact expected.2
      rw [← slotted id.slot entry present] at present
      split
      · exact countStarted present isStarting
      · exact failStart present _

end Moves

theorem Slotted.move (slotted : Slotted state) (move : Move config state after) :
    Slotted after := by
  cases move with
  | setEntry changed present sameId sameConfig progress =>
    intro own other isOther
    rw [entryAt_setEntry (lt_of_entryAt present)] at isOther
    split at isOther
    next same =>
      cases isOther
      rw [sameId, same]
      exact slotted _ _ present
    · exact slotted own other isOther
  | halt env =>
    intro own other isOther
    rw [entryAt_halted] at isOther
    obtain ⟨old, isOld, rfl⟩ := Option.map_eq_some_iff.mp isOther
    exact slotted own old isOld
  | count running attempts => exact slotted
  | release slot freeFails =>
    intro own other isOther
    rw [entryAt_releaseListenerSlot] at isOther
    split at isOther
    · cases isOther
    · exact slotted own other isOther
  | add present installed openListener targets attempt => exact slotted
  | task task unrelated inside => exact slotted

theorem Slotted.moves (slotted : Slotted state) (moves : Moves config state after) :
    Slotted after := by
  induction moves with
  | refl => exact slotted
  | tail _ move ih => exact ih.move move

namespace Moves

theorem scheduleAdds {shards : List Nat} {present : ListenerEntry} {attempt : Nat}
    (slotted : Slotted state) (isPresent : state.entryAt slot = some present)
    (sameId : present.id = entry.id)
    (installed : ∀ shard ∈ shards, shard ∈ present.config.installShards) :
    Moves config state (ServerState.scheduleAdds config env entry attempt shards state).2 := by
  induction shards generalizing state with
  | nil => exact refl state
  | cons shard shards ih =>
    unfold ServerState.scheduleAdds
    split
    · have first : Moves config state (state.schedule shard (.addListener entry.id
          (shard ∈ entry.config.openShards) (entry.config.targetShards shard) attempt)) := by
        rw [← sameId]
        exact single (.add isPresent (installed shard mem_cons_self) _ _ _)
      refine first.trans (ih (slotted.moves first) isPresent fun own inside => ?_)
      exact installed own (mem_cons_of_mem _ inside)
    · exact handle slotted false

theorem startListenerSlot (slotted : Slotted state) :
    Moves config state (ServerState.startListenerSlot config env state slot).2 := by
  unfold ServerState.startListenerSlot
  cases present : state.entryAt slot with
  | none => exact refl state
  | some entry =>
    have isSlot := slotted slot entry present
    subst isSlot
    dsimp only
    split
    · exact refl state
    split
    · exact refl state
    split
    · exact settle present .failed [] nofun nofun
    · have begins : Moves config state (state.beginAttempt entry) :=
        (single (.setEntry (begun entry state.attempts) present rfl rfl
          fun _ => ⟨fun _ => rfl, nofun⟩)).trans
          (single (.count state.running (state.attempts + 1)))
      have isPresent : (state.beginAttempt entry).entryAt entry.id.slot =
          some (begun entry state.attempts) :=
        (entryAt_setEntry (lt_of_entryAt present) _ _).trans (if_pos rfl)
      exact begins.trans (scheduleAdds (slotted.moves begins) isPresent rfl fun _ inside => inside)

theorem startSlots {slots : List Nat} (slotted : Slotted state) :
    Moves config state (ServerState.startSlots config env slots state).2 := by
  induction slots generalizing state with
  | nil => exact refl state
  | cons slot slots ih =>
    have first : Moves config state (ServerState.startListenerSlot config env state slot).2 :=
      startListenerSlot slotted
    exact first.trans (ih (slotted.moves first))

theorem start (slotted : Slotted state) : Moves config state (start config env state).2 := by
  unfold ServerState.start
  split
  · exact refl state
  split
  · exact refl state
  · exact (single (.count true state.attempts)).trans (startSlots slotted)

theorem stop : Moves config state (stop config env state).2 := by
  have stops : ∀ (shards : List Nat) (state : ServerState),
      (∀ shard ∈ shards, shard < config.threadCount) →
        Moves config state (scheduleStops env shards state) := by
    intro shards
    induction shards with
    | nil => exact fun state _ => refl state
    | cons shard shards ih =>
      intro state inside
      have rest := fun state => ih state fun own isOwn => inside own (mem_cons_of_mem _ isOwn)
      unfold scheduleStops
      rw [foldl_cons]
      split
      · exact (single (.task .stop (fun _ => rfl) (inside shard mem_cons_self))).trans (rest _)
      · exact rest _
  unfold ServerState.stop
  split
  · exact refl state
  split
  · exact refl state
  · refine (single (.halt env)).trans (stops _ _ fun shard inside => ?_)
    exact mem_range.mp inside

theorem removeListener (policy : RemoveListenerPolicy) :
    Moves config state (removeListener config env state id policy).2 := by
  unfold ServerState.removeListener
  split
  · exact refl state
  split
  · exact refl state
  · exact (single (.release _ _)).trans (scheduleRemoves _ _)

theorem addListener {listener : ListenerConfig} (slotted : Slotted (state.storeEntry listener).2) :
    (addListener config env state listener).2 = state ∨ listener.validate config = true ∧
        Moves config (state.storeEntry listener).2 (addListener config env state listener).2 := by
  unfold ServerState.addListener
  split
  · exact .inl rfl
  next valid =>
    refine .inr ⟨by simp_all, ?_⟩
    dsimp only
    split
    · exact refl _
    split
    · exact startListenerSlot slotted
    split
    · exact (startListenerSlot slotted).trans (single (.release _ _))
    · exact startListenerSlot slotted

end Moves

end ServerState

end AsyncFlow
