import AsyncFlow.TransitionSystem
import Mathlib.Algebra.Group.Nat.Defs
import Mathlib.Data.List.Nodup

/-!
# The gate for external posts

A post from outside the runtime checks the status in `try_enter_post`, raises a
counter of its target, and checks status and generation again.  `shutdown` makes
the status `Stopping` and waits for one counter after the other to become zero
before it touches executors and queues.  Every step is one atomic access, or one
of the parts of `init` and `shutdown` that no post may overlap.
-/

namespace AsyncFlow

open Function BitVec

inductive RuntimeStatus
  | stopped | starting | running | stopping
  deriving DecidableEq

inductive PosterPc
  | idle
  | loadGeneration (target : Nat)
  | loadStatus (target : Nat) (generation : BitVec 64)
  | increment (target : Nat) (generation : BitVec 64)
  | recheckStatus (target : Nat) (generation : BitVec 64)
  | recheckGeneration (target : Nat) (generation : BitVec 64)
  /-- between a successful `try_enter_post` and `leave_post`, with the generation
  in which it entered -/
  | entered (target : Nat) (during : Nat)
  | leaveRefused (target : Nat)
  deriving DecidableEq

/-- A thread in `init` or `shutdown`, past its compare-exchange of the status. -/
inductive ControllerPc
  | idle
  | initGeneration
  | initQueues
  | initExecutors
  | storeRunning
  /-- `wait_for_external_posts`, at the counter of the target -/
  | scan (target : Nat)
  | waitForIdle
  | requestStop (executor : Nat)
  | join (executor : Nat)
  | clear
  | storeStopped
  deriving DecidableEq

structure GateState where
  status : RuntimeStatus
  generation : BitVec 64
  activeExternalPosts : Nat → BitVec 32
  posters : Nat → PosterPc
  controllers : Nat → ControllerPc
  /-- History: how many generations have begun. -/
  inits : Nat
  /-- History: the generation for which the queues were built. -/
  queueGeneration : Nat
  /-- History: `wait_for_external_posts` has returned in a shutdown, and no
  `init` has stored `Running` since. -/
  postsAwaited : Bool
  /-- History: the threads that raised the counter and did not lower it. -/
  holders : Nat → List Nat
  /-- History: for each push, the generation in which its post entered and that
  of the queues. -/
  pushes : List (Nat × Nat)

def PosterPc.target : PosterPc → Option Nat
  | .idle => none
  | .loadGeneration target | .loadStatus target _ | .increment target _
  | .recheckStatus target _ | .recheckGeneration target _ | .entered target _
  | .leaveRefused target => some target

/-- The target whose counter the post has raised. -/
def PosterPc.holds : PosterPc → Option Nat
  | .recheckStatus target _ | .recheckGeneration target _ | .entered target _
  | .leaveRefused target => some target
  | .idle | .loadGeneration _ | .loadStatus _ _ | .increment _ _ => none

def PosterPc.raises : PosterPc → Option Nat
  | .increment target _ => some target
  | _ => none

def PosterPc.entry : PosterPc → Option Nat
  | .entered target _ => some target
  | _ => none

/-- The post has seen `Running` while it held the counter. -/
def PosterPc.passed : PosterPc → Bool
  | .recheckGeneration _ _ | .entered _ _ => true
  | .idle | .loadGeneration _ | .loadStatus _ _ | .increment _ _ | .recheckStatus _ _
  | .leaveRefused _ => false

/-- The status while the controller is at work. -/
def ControllerPc.works : ControllerPc → Option RuntimeStatus
  | .idle => none
  | .initGeneration | .initQueues | .initExecutors | .storeRunning => some .starting
  | .scan _ | .waitForIdle | .requestStop _ | .join _ | .clear | .storeStopped =>
    some .stopping

/-- The controller changes executors or queues. -/
def ControllerPc.rebuilds : ControllerPc → Bool
  | .initQueues | .initExecutors | .clear => true
  | _ => false

namespace Gate

inductive Action
  | post (thread target : Nat)
  | poster (thread : Nat)
  | push (thread : Nat)
  | init (controller : Nat)
  | shutdown (controller : Nat)
  | controller (controller : Nat)
  deriving DecidableEq

def withPoster (state : GateState) (thread : Nat) (pc : PosterPc) : GateState :=
  { state with posters := update state.posters thread pc }

def withController (state : GateState) (controller : Nat) (pc : ControllerPc) : GateState :=
  { state with controllers := update state.controllers controller pc }

def enterPost (state : GateState) (thread target : Nat) : GateState :=
  { state with
    activeExternalPosts := update state.activeExternalPosts target
      (state.activeExternalPosts target + 1)
    holders := update state.holders target (thread :: state.holders target) }

def leavePost (state : GateState) (thread target : Nat) : GateState :=
  { state with
    activeExternalPosts := update state.activeExternalPosts target
      (state.activeExternalPosts target - 1)
    holders := update state.holders target ((state.holders target).erase thread) }

def stepPoster (state : GateState) (thread : Nat) : Option GateState :=
  match state.posters thread with
  | .idle => none
  | .loadGeneration target =>
    some (withPoster state thread (.loadStatus target state.generation))
  | .loadStatus target generation =>
    some (withPoster state thread
      (if state.status = .running then .increment target generation else .idle))
  | .increment target generation =>
    some (withPoster (enterPost state thread target) thread (.recheckStatus target generation))
  | .recheckStatus target generation =>
    some (withPoster state thread
      (if state.status = .running then .recheckGeneration target generation
      else .leaveRefused target))
  | .recheckGeneration target generation =>
    some (withPoster state thread (if state.generation = generation then .entered target state.inits
      else .leaveRefused target))
  | .entered target _ | .leaveRefused target =>
    some (withPoster (leavePost state thread target) thread .idle)

def stepPush (state : GateState) (thread : Nat) : Option GateState :=
  match state.posters thread with
  | .entered _ during =>
    some { state with pushes := (during, state.queueGeneration) :: state.pushes }
  | _ => none

def stepInit (state : GateState) (controller : Nat) : Option GateState :=
  if state.controllers controller = .idle then
    if state.status = .stopped then
      some (withController { state with status := .starting } controller .initGeneration)
    else some state
  else none

def stepShutdown (state : GateState) (controller : Nat) : Option GateState :=
  if state.controllers controller = .idle then
    if state.status = .running then
      some (withController { state with status := .stopping } controller (.scan 0))
    else some state
  else none

/-- The next part of `init` or `shutdown`.  A counter that is not zero is loaded
again. -/
def stepController (threadCount : Nat) (state : GateState) (controller : Nat) : Option GateState :=
  let goOn := fun pc => some (withController state controller pc)
  match state.controllers controller with
  | .idle => none
  | .initGeneration =>
    some (withController { state with generation := state.generation + 1, inits := state.inits + 1 }
      controller .initQueues)
  | .initQueues =>
    some (withController { state with queueGeneration := state.inits } controller .initExecutors)
  | .initExecutors => goOn .storeRunning
  | .storeRunning =>
    some (withController { state with status := .running, postsAwaited := false } controller .idle)
  | .scan target =>
    if target < threadCount then
      if state.activeExternalPosts target = 0 then goOn (.scan (target + 1)) else some state
    else
      some (withController { state with postsAwaited := true } controller .waitForIdle)
  | .waitForIdle => goOn (.requestStop 0)
  | .requestStop executor =>
    goOn (if executor < threadCount then .requestStop (executor + 1) else .join 0)
  | .join executor =>
    goOn (if executor < threadCount then .join (executor + 1) else .clear)
  | .clear => goOn .storeStopped
  | .storeStopped =>
    some (withController { state with status := .stopped } controller .idle)

def step (threadCount : Nat) (state : GateState) : Action → Option GateState
  | .post thread target =>
    if state.posters thread = .idle ∧ target < threadCount then
      some (withPoster state thread (.loadGeneration target))
    else none
  | .poster thread => stepPoster state thread
  | .push thread => stepPush state thread
  | .init controller => stepInit state controller
  | .shutdown controller => stepShutdown state controller
  | .controller controller => stepController threadCount state controller

def start : GateState where
  status := .stopped
  generation := 0
  activeExternalPosts := fun _ => 0
  posters := fun _ => .idle
  controllers := fun _ => .idle
  inits := 0
  queueGeneration := 0
  postsAwaited := false
  holders := fun _ => []
  pushes := []

def system (threadCount : Nat) : TransitionSystem GateState Action where
  initial := fun state => state = start
  step := step threadCount

/-- The counters count the posts that raised them. -/
structure Counters (state : GateState) : Prop where
  counted : ∀ target,
    state.activeExternalPosts target = BitVec.ofNat 32 (state.holders target).length
  few : ∀ target, (state.holders target).length < 2 ^ 32
  holds : ∀ thread target,
    thread ∈ state.holders target ↔ (state.posters thread).holds = some target
  nodup : ∀ target, (state.holders target).Nodup

/-- One controller at a time is at work, and the status tells at what. -/
structure Controlled (state : GateState) : Prop where
  status : ∀ controller work, (state.controllers controller).works = some work → state.status = work
  alone : ∀ controller other, state.controllers controller ≠ .idle →
    state.controllers other ≠ .idle → controller = other
  built : state.status = .running ∨ state.status = .stopping ∨
      (∃ controller, state.controllers controller = .initExecutors ∨
        state.controllers controller = .storeRunning) → state.queueGeneration = state.inits
  awaited : state.status = .running → state.postsAwaited = false

def Unscanned (state : GateState) (target : Nat) : Prop :=
  state.postsAwaited = false ∧ (state.status = .running ∨ state.status = .stopping ∧
      ∀ controller, state.controllers controller ≠ .idle →
        ∃ reached ≤ target, state.controllers controller = .scan reached)

structure PosterFact (threadCount : Nat) (state : GateState) (pc : PosterPc) : Prop where
  target : ∀ target, pc.target = some target → target < threadCount
  passed : ∀ target, pc.passed = true → pc.holds = some target → Unscanned state target
  entered : ∀ target during, pc = .entered target during → during = state.inits

structure GateInv (threadCount : Nat) (state : GateState) : Prop where
  counters : Counters state
  controlled : Controlled state
  posters : ∀ thread, PosterFact threadCount state (state.posters thread)
  pushes : ∀ pushed ∈ state.pushes, pushed.1 = pushed.2

variable {threadCount : Nat} {state after : GateState}

theorem Counters.not_holds (counters : Counters state) {target : Nat}
    (zero : state.activeExternalPosts target = 0) (thread : Nat) :
    (state.posters thread).holds ≠ some target := by
  intro holds
  have counted := counters.counted target
  have few := counters.few target
  have noLength : (state.holders target).length = 0 := by
    rw [zero] at counted
    have value := congrArg BitVec.toNat counted
    rw [toNat_ofNat, Nat.mod_eq_of_lt few] at value
    exact value.symm
  have isHolder := (counters.holds thread target).mpr holds
  rw [List.eq_nil_of_length_eq_zero noLength] at isHolder
  cases isHolder

section Posters

variable {thread target : Nat} {pc : PosterPc}

theorem GateInv.posterStep (inv : GateInv threadCount state)
    {activeExternalPosts : Nat → BitVec 32} {holders : Nat → List Nat}
    (counters : Counters { state with
      posters := update state.posters thread pc
      activeExternalPosts := activeExternalPosts
      holders := holders })
    (fact : PosterFact threadCount state pc) :
    GateInv threadCount { state with
      posters := update state.posters thread pc
      activeExternalPosts := activeExternalPosts
      holders := holders } where
  counters := counters
  controlled := { inv.controlled with }
  posters := fun other => by
    have facts : ∀ other, PosterFact threadCount state (update state.posters thread pc other) :=
      (forall_update_iff _ fun _ => _).mpr ⟨fact, fun other _ => inv.posters other⟩
    exact { facts other with }
  pushes := inv.pushes

theorem Counters.keep (counters : Counters state)
    (sameHolds : pc.holds = (state.posters thread).holds) :
    Counters (withPoster state thread pc) := by
  refine { counters with holds := fun other target => ?_ }
  have holds := counters.holds other target
  dsimp only [withPoster]
  grind [update_apply]

theorem Counters.enter (counters : Counters state)
    (notHeld : (state.posters thread).holds = none) (holds : pc.holds = some target)
    (fits : (state.holders target).length + 1 < 2 ^ 32) :
    Counters (withPoster (enterPost state thread target) thread pc) := by
  obtain ⟨counted, few, held, nodup⟩ := counters
  constructor <;> dsimp only [withPoster, enterPost]
  case counted =>
    intro other
    by_cases here : other = target
    · subst here
      simp only [update_self, List.length_cons, counted other, ofNat_add]
      rfl
    · simp only [update_of_ne here, counted other]
  case few | holds | nodup => grind [update_apply]

theorem Counters.leave (counters : Counters state)
    (held : (state.posters thread).holds = some target) (released : pc.holds = none) :
    Counters (withPoster (leavePost state thread target) thread pc) := by
  have isHolder : thread ∈ state.holders target := (counters.holds thread target).mpr held
  have length := List.length_erase_add_one isHolder
  obtain ⟨counted, few, holds, nodup⟩ := counters
  constructor <;> dsimp only [withPoster, leavePost]
  case counted =>
    intro other
    by_cases here : other = target
    · subst here
      simp only [update_self, counted other, ← length, ofNat_add]
      exact add_sub_cancel _ _
    · simp only [update_of_ne here, counted other]
  case few | holds | nodup => grind [update_apply, List.Nodup.mem_erase_iff, List.Nodup.erase]

end Posters

/-- Fewer than 2 ^ 32 posts at a time raise the counter of one target. -/
def countersFit (state : GateState) : Action → Prop
  | .poster thread => ∀ target ∈ (state.posters thread).raises,
      (state.holders target).length + 1 < 2 ^ 32
  | _ => True

instance (state : GateState) (action : Action) : Decidable (countersFit state action) :=
  match action with
  | .poster _ => inferInstanceAs (Decidable (∀ target ∈ _, _))
  | .post _ _ | .push _ | .init _ | .shutdown _ | .controller _ =>
    inferInstanceAs (Decidable True)

theorem GateInv.stepPoster {thread : Nat} (inv : GateInv threadCount state)
    (fits : countersFit state (.poster thread))
    (steps : stepPoster state thread = some after) : GateInv threadCount after := by
  obtain ⟨valid, passed, entered⟩ := inv.posters thread
  unfold Gate.stepPoster at steps
  cases at_ : state.posters thread with
  | idle => simp [at_] at steps
  | loadGeneration target | loadStatus target generation | recheckStatus target generation
  | recheckGeneration target generation =>
    -- the counter stays; who passes the check of the status finds it `Running`
    simp only [at_] at steps valid passed
    cases steps
    refine inv.posterStep (inv.counters.keep ?_) ⟨?_, ?_, ?_⟩ <;>
      grind [PosterPc.holds, PosterPc.target, PosterPc.passed, Unscanned, inv.controlled.awaited]
  | increment target generation =>
    simp only [at_] at steps valid
    cases steps
    have few := fits target (by rw [at_]; rfl)
    refine inv.posterStep (inv.counters.enter (by rw [at_]; rfl) rfl few) ⟨valid, ?_, ?_⟩ <;>
      simp [PosterPc.passed]
  | entered target during | leaveRefused target =>
    simp only [at_] at steps
    cases steps
    refine inv.posterStep (inv.counters.leave (by rw [at_]; rfl) rfl) ⟨?_, ?_, ?_⟩ <;>
      simp [PosterPc.passed, PosterPc.target]

section Controllers

variable {controller : Nat} {pc : ControllerPc}

theorem ControllerPc.idle_or_works (pc : ControllerPc) :
    pc = .idle ∨ pc.works = some .starting ∨ pc.works = some .stopping := by
  cases pc <;> simp [ControllerPc.works]

theorem Controlled.idle (controlled : Controlled state)
    (settled : state.status = .stopped ∨ state.status = .running) (other : Nat) :
    state.controllers other = .idle := by
  rcases ControllerPc.idle_or_works (state.controllers other) with isIdle | works | works
  · exact isIdle
  all_goals
    rw [controlled.status other _ works] at settled
    simp at settled

theorem Controlled.idle_of_ne (controlled : Controlled state)
    (busy : state.controllers controller ≠ .idle) {other : Nat} (different : other ≠ controller) :
    state.controllers other = .idle := by
  by_contra alsoBusy
  exact different (controlled.alone other controller alsoBusy busy)

theorem PosterPc.target_of_holds {pc : PosterPc} {target : Nat} (holds : pc.holds = some target) :
    pc.target = some target := by
  cases pc <;> simp_all [PosterPc.holds, PosterPc.target]

theorem GateInv.controllerStep (inv : GateInv threadCount state)
    {status : RuntimeStatus} {generation : BitVec 64} {inits queueGeneration : Nat}
    {postsAwaited : Bool} (othersIdle : ∀ other ≠ controller, state.controllers other = .idle)
    (works : ∀ work, pc.works = some work → status = work)
    (built : status = .running ∨ status = .stopping ∨ pc = .initExecutors ∨
      pc = .storeRunning → queueGeneration = inits)
    (awaited : status = .running → postsAwaited = false)
    (unscanned : ∀ target < threadCount, ∀ thread,
      (state.posters thread).holds = some target → Unscanned state target →
        inits = state.inits ∧ postsAwaited = false ∧ (status = .running ∨
          status = .stopping ∧ (pc ≠ .idle → ∃ reached ≤ target, pc = .scan reached))) :
    GateInv threadCount { state with
      controllers := update state.controllers controller pc
      status := status
      generation := generation
      inits := inits
      queueGeneration := queueGeneration
      postsAwaited := postsAwaited } where
  counters := { inv.counters with }
  controlled := by
    constructor <;> grind [update_apply, ControllerPc.works]
  posters := by
    intro thread
    obtain ⟨valid, passed, entered⟩ := inv.posters thread
    have stays := fun target isPassed holds =>
      unscanned target (valid target (PosterPc.target_of_holds holds)) thread holds
        (passed target isPassed holds)
    refine ⟨valid, fun target isPassed holds => ?_, fun target during isEntered => ?_⟩
    · simp only [Unscanned]
      grind [update_apply]
    · have sameInits := (stays target (by rw [isEntered]; rfl) (by rw [isEntered]; rfl)).1
      exact (entered target during isEntered).trans sameInits.symm
  pushes := inv.pushes

theorem Unscanned.scan {target : Nat} (unscanned : Unscanned state target)
    (controlled : Controlled state) (busy : state.controllers controller ≠ .idle) :
    ∃ reached ≤ target, state.controllers controller = .scan reached := by
  rcases unscanned.2 with isRunning | ⟨_, scans⟩
  · exact absurd (controlled.idle (.inr isRunning) controller) busy
  · exact scans controller busy

theorem GateInv.stepInit (inv : GateInv threadCount state)
    (steps : stepInit state controller = some after) : GateInv threadCount after := by
  unfold Gate.stepInit at steps
  split at steps
  · split at steps
    · rename_i isStopped
      cases steps
      refine inv.controllerStep (fun other _ => inv.controlled.idle (.inl isStopped) other)
        ?_ ?_ ?_ ?_
      · simp [ControllerPc.works]
      · simp
      · simp
      · rintro target _ thread _ ⟨_, open_⟩
        simp [isStopped] at open_
    · cases steps
      exact inv
  · cases steps

theorem GateInv.stepShutdown (inv : GateInv threadCount state)
    (steps : stepShutdown state controller = some after) : GateInv threadCount after := by
  unfold Gate.stepShutdown at steps
  split at steps
  · split at steps
    · rename_i isRunning
      cases steps
      refine inv.controllerStep (fun other _ => inv.controlled.idle (.inr isRunning) other)
        ?_ ?_ ?_ ?_
      · simp [ControllerPc.works]
      · intro _
        exact inv.controlled.built (.inl isRunning)
      · simp
      · intro target _ thread _ unscanned
        exact ⟨rfl, unscanned.1, .inr ⟨rfl, fun _ => ⟨0, Nat.zero_le _, rfl⟩⟩⟩
    · cases steps
      exact inv
  · cases steps

theorem GateInv.stepController (inv : GateInv threadCount state)
    (steps : stepController threadCount state controller = some after) :
    GateInv threadCount after := by
  unfold Gate.stepController at steps
  have controlled := inv.controlled
  by_cases isIdle : state.controllers controller = .idle
  · simp [isIdle] at steps
  have othersIdle : ∀ other ≠ controller, state.controllers other = .idle :=
    fun other => controlled.idle_of_ne isIdle
  -- Nobody has passed the gate unless this controller is at the scan.
  have blocked : ∀ {consequence : Prop} target, Unscanned state target →
      (∀ reached ≤ target, state.controllers controller ≠ .scan reached) → consequence := by
    intro consequence target unscanned notScan
    obtain ⟨reached, before, scans⟩ := unscanned.scan controlled isIdle
    exact absurd scans (notScan reached before)
  cases at_ : state.controllers controller with
  | idle => exact absurd at_ isIdle
  | initGeneration | initQueues | initExecutors | storeRunning =>
    simp only [at_] at steps
    cases steps
    have isStarting := controlled.status controller .starting (by rw [at_]; rfl)
    refine inv.controllerStep othersIdle ?_ ?_ ?_ fun target _ _ _ unscanned =>
      blocked target unscanned (by simp [at_]) <;> grind [ControllerPc.works, controlled.built]
  | scan reached =>
    have isStopping := controlled.status controller .stopping (by rw [at_]; rfl)
    have built := controlled.built (.inr (.inl isStopping))
    simp only [at_] at steps
    split at steps
    · split at steps
      · rename_i zero
        cases steps
        refine inv.controllerStep othersIdle (by simp [ControllerPc.works, isStopping])
          (fun _ => built) controlled.awaited fun target _ thread holds unscanned => ?_
        obtain ⟨scanned, before, scans⟩ := unscanned.scan controlled isIdle
        obtain rfl : reached = scanned := by simpa [at_] using scans
        refine ⟨rfl, unscanned.1, .inr ⟨isStopping, fun _ => ⟨reached + 1, ?_, rfl⟩⟩⟩
        rcases Nat.lt_or_eq_of_le before with before | rfl
        · exact before
        · exact absurd holds (inv.counters.not_holds zero thread)
      · cases steps
        exact inv
    · cases steps
      refine inv.controllerStep othersIdle (by simp [ControllerPc.works, isStopping])
        (fun _ => built) (by simp [isStopping]) fun target valid _ _ unscanned => ?_
      refine blocked target unscanned fun scanned before scans => ?_
      obtain rfl : reached = scanned := by simpa [at_] using scans
      omega
  | waitForIdle | clear | storeStopped | requestStop executor | join executor =>
    have isStopping := controlled.status controller .stopping (by rw [at_]; rfl)
    simp only [at_] at steps
    cases steps
    refine inv.controllerStep othersIdle ?_
      (fun _ => controlled.built (.inr (.inl isStopping))) ?_ fun target _ _ _ unscanned =>
        blocked target unscanned (by simp [at_]) <;> grind [ControllerPc.works]

end Controllers

theorem GateInv.step {action : Action} (inv : GateInv threadCount state)
    (fits : countersFit state action) (steps : step threadCount state action = some after) :
    GateInv threadCount after := by
  cases action with
  | post thread target =>
    simp only [Gate.step, Option.ite_none_right_eq_some] at steps
    obtain ⟨⟨isIdle, valid⟩, result⟩ := steps
    cases result
    refine inv.posterStep (inv.counters.keep (by rw [isIdle]; rfl)) ⟨?_, ?_, ?_⟩ <;>
      simp [PosterPc.passed, PosterPc.target, valid]
  | poster thread => exact inv.stepPoster fits steps
  | push thread =>
    simp only [Gate.step, stepPush] at steps
    split at steps
    · rename_i target during isEntered
      cases steps
      have fact := inv.posters thread
      have unscanned := fact.passed target (by rw [isEntered]; rfl) (by rw [isEntered]; rfl)
      have built := inv.controlled.built (unscanned.2.imp id fun stopping => .inl stopping.1)
      exact ⟨{ inv.counters with }, { inv.controlled with }, fun other => { inv.posters other with },
        List.forall_mem_cons.mpr
          ⟨(fact.entered target during isEntered).trans built.symm, inv.pushes⟩⟩
    · cases steps
  | init controller => exact inv.stepInit steps
  | shutdown controller => exact inv.stepShutdown steps
  | controller controller => exact inv.stepController steps

theorem gateInv_of_reachable {allowed : GateState → Action → Prop}
    (fits : ∀ state action, allowed state action → countersFit state action)
    (reached : (system threadCount).ReachableUnder allowed state) : GateInv threadCount state := by
  refine reached.invariant ?_ fun before action _ _ inv permitted steps =>
    inv.step (fits before action permitted) steps
  rintro state rfl
  refine ⟨⟨?_, ?_, ?_, ?_⟩, ⟨?_, ?_, ?_, ?_⟩, fun thread => ⟨?_, ?_, ?_⟩, ?_⟩ <;>
    simp [start, PosterPc.holds, PosterPc.target, PosterPc.passed, ControllerPc.works]

/-- A post that has entered keeps every controller from its work on executors
and queues. -/
theorem GateInv.entered_excludes (inv : GateInv threadCount state) {thread target during : Nat}
    (isEntered : state.posters thread = .entered target during) : state.postsAwaited = false ∧
      ∀ controller, (state.controllers controller).rebuilds = false := by
  have unscanned := (inv.posters thread).passed target (by rw [isEntered]; rfl)
    (by rw [isEntered]; rfl)
  refine ⟨unscanned.1, fun controller => ?_⟩
  by_cases isIdle : state.controllers controller = .idle
  · rw [isIdle]
    rfl
  · obtain ⟨reached, _, scans⟩ := unscanned.scan inv.controlled isIdle
    rw [scans]
    rfl

/-- After `wait_for_external_posts`, and until `init` stores `Running`, no external
post is between `try_enter_post` and `leave_post`; and every push goes to queues of
the generation in which its post entered. -/
theorem awaited_posts_have_left (reached : (system threadCount).ReachableUnder countersFit state) :
    (state.postsAwaited = true →
      ∀ thread target during, state.posters thread ≠ .entered target during) ∧
    (∀ controller, (state.controllers controller).rebuilds = true →
      ∀ thread target during, state.posters thread ≠ .entered target during) ∧
    ∀ pushed ∈ state.pushes, pushed.1 = pushed.2 := by
  have inv := gateInv_of_reachable (fun _ _ fits => fits) reached
  refine ⟨fun awaited thread target during isEntered => ?_,
    fun controller rebuilds thread target during isEntered => ?_, inv.pushes⟩
  · have notAwaited := (inv.entered_excludes isEntered).1
    rw [awaited] at notAwaited
    cases notAwaited
  · have idle := (inv.entered_excludes isEntered).2 controller
    rw [rebuilds] at idle
    cases idle

def runInit : List Action :=
  .init 0 :: List.replicate 4 (.controller 0)

def runEnter (thread target : Nat) : List Action :=
  .post thread target :: List.replicate 5 (.poster thread)

/-- `shutdown` of a runtime with the given number of executors, up to the end of
`wait_for_external_posts`. -/
def runAwait (threadCount : Nat) : List Action :=
  .shutdown 0 :: List.replicate (threadCount + 1) (.controller 0)

theorem awaited_after_push : ∃ state, (system 2).ReachableUnder countersFit state ∧
      (state.postsAwaited = true ∧ state.pushes = [(1, 1)]) ∧
      (∀ thread target during, state.posters thread ≠ .entered target during) ∧
      ∀ pushed ∈ state.pushes, pushed.1 = pushed.2 := by
  obtain ⟨state, reached, observed⟩ := (system 2).exists_reachableUnder
    countersFit rfl (.flatten [runInit, runEnter 0 1, [.push 0, .poster 0], runAwait 2])
    (fun state => state.postsAwaited = true ∧ state.pushes = [(1, 1)]) (by decide)
  obtain ⟨left, _, sameGeneration⟩ := awaited_posts_have_left reached
  exact ⟨state, reached, observed, left observed.1, sameGeneration⟩

/-- `init` and `shutdown` exclude each other: one thread at a time is between the
exchange that claims the status and the store that ends the transition, the status
says which of the two it is in, and what `init` builds belongs to the last `init`. -/
theorem one_controller (reached : (system threadCount).ReachableUnder countersFit state) :
    (∀ controller other, state.controllers controller ≠ .idle →
      state.controllers other ≠ .idle → controller = other) ∧
    (∀ controller work, (state.controllers controller).works = some work →
      state.status = work) ∧
    (state.status = .running ∨ state.status = .stopping → state.queueGeneration = state.inits) := by
  have controlled := (gateInv_of_reachable (fun _ _ fits => fits) reached).controlled
  refine ⟨controlled.alone, controlled.status, fun isUp => controlled.built ?_⟩
  rcases isUp with isRunning | isStopping
  · exact .inl isRunning
  · exact .inr (.inl isStopping)

theorem one_controller_stopping : ∃ state, (system 2).ReachableUnder countersFit state ∧
    state.status = .stopping ∧ ∀ other, state.controllers other ≠ .idle → 0 = other := by
  obtain ⟨state, reached, isStopping, busy⟩ := (system 2).exists_reachableUnder
    countersFit rfl (.flatten [runInit, runAwait 2])
    (fun state => state.status = .stopping ∧ state.controllers 0 ≠ .idle) (by decide)
  exact ⟨state, reached, isStopping, fun other => (one_controller reached).1 0 other busy⟩

structure ManyEntered (state : GateState) (bound : Nat) : Prop where
  reached : (system 1).Reachable state
  isRunning : state.status = .running
  noController : ∀ controller, state.controllers controller = .idle
  count : state.activeExternalPosts 0 = BitVec.ofNat 32 bound
  entered : ∀ thread < bound, ∃ during, state.posters thread = .entered 0 during
  others : ∀ thread ≥ bound, state.posters thread = .idle

theorem exists_manyEntered (bound : Nat) : ∃ state, ManyEntered state bound := by
  induction bound with
  | zero =>
    have starts : (system 1).initial start := rfl
    have replays : (system 1).replay (fun _ _ => True) start runInit = some { start with
        status := .running
        generation := 1
        inits := 1
        queueGeneration := 1
        controllers := update start.controllers 0 .idle } := by
      simp [TransitionSystem.replay, system, runInit, List.replicate, step, stepInit,
        stepController, withController, start]
    refine ⟨_, ⟨(TransitionSystem.ReachableUnder.start starts).replay replays, rfl, ?_, rfl,
      by simp, fun _ _ => rfl⟩⟩
    intro controller
    by_cases here : controller = 0 <;> simp [here, start]
  | succ bound ih =>
    obtain ⟨state, many⟩ := ih
    have isIdle := many.others bound (Nat.le_refl _)
    have replays : (system 1).replay (fun _ _ => True) state (runEnter bound 0) =
        some (withPoster (enterPost state bound 0) bound (.entered 0 state.inits)) := by
      simp [TransitionSystem.replay, system, runEnter, List.replicate, step, stepPoster,
        withPoster, enterPost, isIdle, many.isRunning]
    refine ⟨_, ⟨many.reached.replay replays, many.isRunning, many.noController, ?_, ?_, ?_⟩⟩
    · simp [withPoster, enterPost, many.count, ofNat_add]
    · intro thread below
      by_cases here : thread = bound
      · subst here
        exact ⟨state.inits, by simp [withPoster]⟩
      · obtain ⟨during, isEntered⟩ := many.entered thread (by omega)
        exact ⟨during, by simp [withPoster, enterPost, update_of_ne here, isEntered]⟩
    · intro thread beyond
      have different : thread ≠ bound := by omega
      simp [withPoster, enterPost, update_of_ne different, many.others thread (by omega)]

/-- With 2 ^ 32 posts inside, the counter has wrapped to zero and the shutdown
does not wait for any of them. -/
theorem wrapped_counter_awaits_nobody :
    ∃ state, (system 1).Reachable state ∧ state.postsAwaited = true ∧
      ∀ thread < 2 ^ 32, ∃ during, state.posters thread = .entered 0 during := by
  obtain ⟨state, many⟩ := exists_manyEntered (2 ^ 32)
  have zero : state.activeExternalPosts 0 = 0 := many.count
  have replays : (system 1).replay (fun _ _ => True) state (runAwait 1) = some { state with
        status := .stopping
        postsAwaited := true
        controllers := update state.controllers 0 .waitForIdle } := by
    simp [TransitionSystem.replay, system, runAwait, List.replicate, step, stepShutdown,
      stepController, withController, many.isRunning, many.noController 0, zero]
  exact ⟨_, many.reached.replay replays, rfl, many.entered⟩

end Gate

end AsyncFlow
