import AsyncFlow.ClientControl
import Mathlib.Data.List.Count

/-!
# Connects in flight

A connect that was scheduled waits on its shard until it ends, and is then a
report on its way.  A step of a shard moves connects on and never doubles one; a
connection it makes belongs to a connect whose success is being reported.
-/

namespace AsyncFlow

open List

def ClientTask.isStop : ClientTask → Bool
  | .stop _ => true
  | .connect _ => false

namespace ClientShard

variable (shard : ClientShard) (control : ConnectControl)

def waiting : Nat := shard.tasks.count (.connect control) + shard.connecting.count control

def reports (connected : Bool) : Nat :=
  shard.outcomes.count (.connect control connected) +
    shard.results.count (.connect control connected)

def undone : Nat := shard.waiting control + shard.reports control false

def flights : Nat := shard.undone control + shard.reports control true

def stops : Nat :=
  shard.tasks.countP ClientTask.isStop + shard.outcomes.count .stop + shard.results.count .stop

variable {shard control}

theorem mem_kept_of_flights (flying : 0 < shard.flights control) : control ∈ shard.kept := by
  by_contra absent
  simp only [kept, mem_append, mem_flatMap, not_or, not_exists, not_and] at absent
  obtain ⟨⟨⟨unscheduled, unwaited⟩, unfinished⟩, unreported⟩ := absent
  have noTask : shard.tasks.count (.connect control) = 0 :=
    count_eq_zero.mpr fun present => unscheduled _ present (mem_singleton_self _)
  have noOutcome : ∀ connected, shard.outcomes.count (.connect control connected) = 0 :=
    fun _ => count_eq_zero.mpr fun present =>
      unfinished _ present (mem_singleton_self _)
  have noResult : ∀ connected, shard.results.count (.connect control connected) = 0 :=
    fun _ => count_eq_zero.mpr fun present =>
      unreported _ present (mem_singleton_self _)
  simp only [flights, undone, waiting, reports, noTask, count_eq_zero.mpr unwaited, noOutcome,
    noResult, Nat.add_zero, Nat.lt_irrefl] at flying

theorem flights_pos (waits : 0 < shard.waiting control) : 0 < shard.flights control := by
  simp only [flights, undone]
  omega

theorem mem_kept_append (task : ClientTask) :
    control ∈ ({ shard with tasks := shard.tasks ++ [task] } : ClientShard).kept ↔
      control ∈ shard.kept ∨ control ∈ task.keeps := by
  simp only [kept, flatMap_append, flatMap_cons, flatMap_nil, append_nil, mem_append]
  tauto

theorem waiting_append (task : ClientTask) :
    ({ shard with tasks := shard.tasks ++ [task] } : ClientShard).waiting control =
      shard.waiting control + if task = .connect control then 1 else 0 := by
  simp only [waiting, count_append, count_cons, count_nil, beq_iff_eq, Nat.zero_add]
  omega

theorem stops_append (task : ClientTask) :
    ({ shard with tasks := shard.tasks ++ [task] } : ClientShard).stops =
      shard.stops + if task.isStop then 1 else 0 := by
  simp only [stops, countP_append, countP_cons, countP_nil, Nat.zero_add]
  omega

structure Goes (before after : ClientShard) : Prop where
  kept : ∀ control ∈ after.kept, control ∈ before.kept
  flights : ∀ control, after.flights control ≤ before.flights control
  made : ∀ control ∈ after.connections,
    control ∈ before.connections ∧ after.undone control ≤ before.undone control ∨
      after.undone control + 1 ≤ before.undone control

theorem Goes.of_runConnect {shard taken : ClientShard}
    (sameOutcomes : taken.outcomes = shard.outcomes) (sameResults : taken.results = shard.results)
    (sameConnections : taken.connections = shard.connections)
    (kept : ∀ other ∈ taken.kept, other ∈ shard.kept) (keptHere : control ∈ shard.kept)
    (waits : ∀ other, taken.waiting other + [control].count other = shard.waiting other)
    (outcome : Outcome) : Goes shard (taken.runConnect control outcome) := by
  cases outcome with
  | waits =>
    have counted : ∀ other,
        (taken.runConnect control .waits).waiting other = shard.waiting other := by
      intro other
      have moved := waits other
      simp only [waiting, runConnect, count_append] at moved ⊢
      omega
    have reported : ∀ other connected, (taken.runConnect control .waits).reports other connected =
          shard.reports other connected := by
      intro other connected
      simp only [reports, runConnect, sameOutcomes, sameResults]
    refine ⟨fun other present => ?_, fun other => ?_, fun other present => .inl ⟨?_, ?_⟩⟩
    · simp only [ClientShard.kept, runConnect, mem_append, mem_singleton] at present
      have inTaken := kept other
      simp only [ClientShard.kept, mem_append] at inTaken keptHere ⊢
      grind
    · simp only [ClientShard.flights, undone, counted, reported, Nat.le_refl]
    · simpa only [runConnect, sameConnections] using present
    · simp only [undone, counted, reported, Nat.le_refl]
  | ends connected =>
    have counted : ∀ other,
        (taken.runConnect control (.ends connected)).waiting other + [control].count other =
          shard.waiting other := waits
    have reported : ∀ other said,
        (taken.runConnect control (.ends connected)).reports other said = shard.reports other said +
            [ClientResult.connect control connected].count (.connect other said) := by
      intro other said
      simp only [reports, runConnect, sameOutcomes, sameResults, count_append]
      omega
    have undoneNow : ∀ other, (taken.runConnect control (.ends connected)).undone other +
            (if connected ∧ control = other then 1 else 0) = shard.undone other := by
      intro other
      have moved := counted other
      have said := reported other false
      cases connected <;>
      simp only [undone, count_cons, count_nil, beq_iff_eq,
        ClientResult.connect.injEq, and_true, true_and, reduceCtorEq, and_false, false_and,
        if_false] at moved said ⊢ <;>
      omega
    refine ⟨fun other present => ?_, fun other => ?_, fun other present => ?_⟩
    · simp only [ClientShard.kept, runConnect, flatMap_append, flatMap_cons,
        flatMap_nil, append_nil, ClientResult.keeps, mem_append, mem_singleton] at present
      have inTaken := kept other
      simp only [ClientShard.kept, mem_append] at inTaken keptHere ⊢
      grind
    · have less := undoneNow other
      have said := reported other true
      cases connected <;>
      simp only [ClientShard.flights, count_cons, count_nil, beq_iff_eq,
        ClientResult.connect.injEq, and_true, true_and, reduceCtorEq, and_false, false_and,
        if_false] at less said ⊢ <;>
      omega
    · have less := undoneNow other
      by_cases new : connected ∧ control = other
      · rw [if_pos new] at less
        exact .inr (Nat.le_of_eq less)
      · rw [if_neg new] at less
        refine .inl ⟨?_, Nat.le_of_eq less⟩
        simp only [runConnect, sameConnections] at present
        split at present
        · rcases mem_append.mp present with old | made
          · exact old
          · exact absurd ⟨‹_›, (mem_singleton.mp made).symm⟩ new
        · exact present

variable {rest : List ClientTask}

theorem waiting_pop (next : shard.tasks = .connect control :: rest) (other : ConnectControl) :
    ({ shard with tasks := rest } : ClientShard).waiting other + [control].count other =
      shard.waiting other := by
  simp only [waiting, next, count_cons, count_nil, beq_iff_eq, ClientTask.connect.injEq]
  omega

theorem waiting_erase (waits : control ∈ shard.connecting) (other : ConnectControl) :
    ({ shard with connecting := shard.connecting.erase control } : ClientShard).waiting other +
      [control].count other = shard.waiting other := by
  have present : 0 < shard.connecting.count control := count_pos_iff.mpr waits
  simp only [waiting, count_erase, count_cons, count_nil, beq_iff_eq]
  split
  next same =>
    subst same
    omega
  · omega

theorem goes_runTask (next : shard.tasks = .connect control :: rest) (outcome : Outcome) :
    Goes shard (({ shard with tasks := rest } : ClientShard).runConnect control outcome) := by
  refine Goes.of_runConnect (by rfl) (by rfl) (by rfl) (fun other present => ?_) ?_
    (waiting_pop next) outcome
  · simp only [kept, next, flatMap_cons, mem_append] at present ⊢
    tauto
  · simp only [kept, next, flatMap_cons, mem_append, ClientTask.keeps, mem_singleton, true_or]

theorem goes_resume (waits : control ∈ shard.connecting) (outcome : Outcome) :
    Goes shard (({ shard with connecting := shard.connecting.erase control } :
      ClientShard).runConnect control outcome) := by
  refine Goes.of_runConnect (by rfl) (by rfl) (by rfl) (fun other present => ?_) ?_
    (waiting_erase waits) outcome
  · have erased : other ∈ shard.connecting.erase control → other ∈ shard.connecting :=
      mem_of_mem_erase
    simp only [kept, mem_append] at present ⊢
    tauto
  · simp only [kept, mem_append, waits, or_true, true_or]

theorem Goes.of_le {before after : ClientShard}
    (kept : ∀ control ∈ after.kept, control ∈ before.kept)
    (waiting : ∀ control, after.waiting control ≤ before.waiting control)
    (reports : ∀ control connected,
      after.reports control connected ≤ before.reports control connected)
    (connections : ∀ control ∈ after.connections, control ∈ before.connections) :
    Goes before after where
  kept := kept
  flights := fun control => Nat.add_le_add
    (Nat.add_le_add (waiting control) (reports control false)) (reports control true)
  made := fun control present =>
    .inl ⟨connections control present, Nat.add_le_add (waiting control) (reports control false)⟩

theorem goes_runStop {pending : List ConnectControl} (next : shard.tasks = .stop pending :: rest) :
    Goes shard (({ shard with tasks := rest } : ClientShard).runStop pending) := by
  refine Goes.of_le (fun control present => ?_) (fun control => ?_) (fun control connected => ?_)
    (fun control present => absurd present not_mem_nil)
  · simp only [kept, runStop, next, flatMap_cons, flatMap_append, flatMap_nil,
      ClientResult.keeps, append_nil, mem_append] at present ⊢
    tauto
  · simp only [waiting, runStop, next, count_cons, beq_iff_eq, reduceCtorEq, if_false,
      Nat.add_zero, Nat.le_refl]
  · simp only [reports, runStop, count_append, count_cons, count_nil, beq_iff_eq,
      reduceCtorEq, if_false, Nat.add_zero, Nat.le_refl]

theorem goes_close : Goes shard { shard with connections := shard.connections.erase control } :=
  Goes.of_le (fun _ => id) (fun _ => Nat.le_refl _) (fun _ _ => Nat.le_refl _)
    (fun _ => mem_of_mem_erase)

variable {result : ClientResult}

theorem goes_reports {outcomes results : List ClientResult}
    (fewer : ∀ result, outcomes.count result + results.count result ≤
      shard.outcomes.count result + shard.results.count result) :
    Goes shard { shard with outcomes, results } := by
  refine Goes.of_le (fun control present => ?_) (fun _ => Nat.le_refl _)
    (fun control connected => fewer _) (fun _ => id)
  have known : ∀ result, result ∈ outcomes ∨ result ∈ results →
      result ∈ shard.outcomes ∨ result ∈ shard.results := by
    intro result
    have less := fewer result
    simp only [← count_pos_iff]
    omega
  simp only [kept, mem_append, mem_flatMap] at present ⊢
  grind

end ClientShard

end AsyncFlow
