import AsyncFlow.ExecutorLoop

/-!
# No executor sleeps on work

Before it waits, an executor loads `wake_epoch_`, raises `sleeping_`, looks at the
stop flag and at each queue once more, and loads `wake_epoch_` again.  Work that
arrives where the executor has looked is announced by a `fetch_add` that precedes
the second load or is still to come.

With an IO backend the eventfd must become readable.  A producer leaves that to
another one when it finds `sleeping_` lowered or `io_wake_pending_` raised, and
both are changed only by a producer that is on its way to the eventfd or has
written it.
-/

namespace AsyncFlow

open Function List Option BitVec

namespace Executor

variable {config : ExecutorConfig} {state after : ExecutorState}

inductive Work
  | localRing
  | spsc (source : Nat)
  | external
  | stop

def present (state : ExecutorState) : Work → Prop
  | .localRing => state.queues.localQueue ≠ []
  | .spsc source => state.queues.spscQueues source ≠ []
  | .external => state.queues.externalQueue ≠ []
  | .stop => state.stopRequested = true

def fallbackSaw : ScanPc → Nat → Prop
  | .tryFallback sources => (· ∉ sources)
  | .loadExternalReady | .tryReady | .clearReady | .retryReady | .tryExternal => fun _ => True
  | .popLocal | .loadWord _ | .tryMasked _ _ _ | .clearMasked _ _ _ | .retryMasked _ _ _
  | .mark _ _ | .restoreReady _ => fun _ => False

def scanSaw (scan : ScanPc) : Work → Prop
  | .localRing => scan ≠ .popLocal
  | .spsc source => fallbackSaw scan source
  | .external => False
  | .stop => True

/-- The executor has looked for the work since it last loaded `wake_epoch_`, and
has found none. -/
def saw : LoopPc → Work → Prop
  | .settle _ scan => scanSaw scan
  | .recheckEpoch _ | .futexWait _ | .epollWait true => fun _ => True
  | .drain _ _ | .execute _ | .checkStop _ | .pollPending | .epollWait false | .events _ _ _
  | .drainRead _ | .drainStore _ | .loadEpoch | .storeSleeping _ | .recheckStop _
  | .clearSleeping _ | .returned => fun _ => False

/-- The value of `wake_epoch_` that a sleep attempt compares with. -/
def observedEpoch : LoopPc → Option (BitVec 32)
  | .storeSleeping observed | .recheckStop observed | .settle observed _
  | .recheckEpoch observed | .futexWait observed => some observed
  | .drain _ _ | .execute _ | .checkStop _ | .pollPending | .epollWait _ | .events _ _ _
  | .drainRead _ | .drainStore _ | .loadEpoch | .clearSleeping _ | .returned => none

/-- `sleeping_` has been raised for the present sleep attempt. -/
def drowsy : LoopPc → Bool
  | .recheckStop _ | .settle _ _ | .recheckEpoch _ | .futexWait _ | .epollWait true => true
  | .drain _ _ | .execute _ | .checkStop _ | .pollPending | .epollWait false | .events _ _ _
  | .drainRead _ | .drainStore _ | .loadEpoch | .storeSleeping _ | .clearSleeping _
  | .returned => false

def drains : LoopPc → Bool
  | .drainRead _ | .drainStore _ => true
  | .drain _ _ | .execute _ | .checkStop _ | .pollPending | .epollWait _ | .events _ _ _
  | .loadEpoch | .storeSleeping _ | .recheckStop _ | .settle _ _ | .recheckEpoch _
  | .futexWait _ | .clearSleeping _ | .returned => false

/-- The work of the producer is not yet announced in `wake_epoch_`. -/
def unannounced : ProducerPc → Bool
  | .publish | .markReady | .loadExternalReady | .storeExternalReady | .bump _ => true
  | .idle | .loadSleeping | .casSleeping | .casPending | .writeEvent | .notifyOne => false

/-- Fewer than 2 ^ 32 notifications fall into one sleep attempt. -/
def fewNotifications (state : ExecutorState) : Action → Prop
  | .producer _ => observedEpoch state.loop ≠ none → state.notifications + 1 < 2 ^ 32
  | _ => True

instance (action : Action) : Decidable (fewNotifications state action) :=
  match action with
  | .producer _ => inferInstanceAs (Decidable (_ → _))
  | .loop _ | .pushLocal _ | .popLocal | .pushSpsc _ _ | .pushExternal _ _ | .requestStop _ =>
    inferInstanceAs (Decidable True)

/-! ### The invariants -/

/-- Queues are filled by those who may, and the executor's own calls are user
code. -/
structure Attributed (config : ExecutorConfig) (state : ExecutorState) : Prop where
  writers : ∀ cell ∈ state.queues.externalQueue, ∀ thread, cell.writer = some thread →
    state.producers thread = .publish
  sources : ∀ source, state.queues.spscQueues source ≠ [] →
    source < config.runtime.threadCount ∧ source ≠ config.index
  self : state.producers config.index ≠ .idle → userCode state.loop = true
  backend : ∀ blocks, state.loop = .epollWait blocks → config.ioBackend = true
  noBackend : ∀ thread, state.producers thread = .notifyOne → config.ioBackend = false

/-- `io_wake_pending_` is up exactly while a producer is about to write the
eventfd, it is readable, or it is being drained. -/
structure WakeToken (state : ExecutorState) : Prop where
  alone : ∀ thread other, state.producers thread = .writeEvent →
    state.producers other = .writeEvent → thread = other
  writer : ∀ thread, state.producers thread = .writeEvent →
    state.ioWakePending = true ∧ state.eventfd = 0 ∧ drains state.loop = false
  readable : state.eventfd ≠ 0 → state.ioWakePending = true
  held : state.ioWakePending = true → (∃ thread, state.producers thread = .writeEvent) ∨
    state.eventfd ≠ 0 ∨ drains state.loop = true
  draining : drains state.loop = true → state.ioWakePending = true
  reported : ∀ blocks didWork, state.loop = .events blocks true didWork → state.eventfd ≠ 0
  emptied : ∀ blocks, state.loop = .drainStore blocks → state.eventfd = 0

/-- Who lowers `sleeping_` goes on to the eventfd. -/
def Swallowed (config : ExecutorConfig) (state : ExecutorState) : Prop :=
  config.ioBackend = true → drowsy state.loop = true → state.sleeping = false →
    state.ioWakePending = true ∨ ∃ thread, state.producers thread = .casPending

def Counted (state : ExecutorState) : Prop :=
  ∀ observed, observedEpoch state.loop = some observed →
    state.wakeEpoch = observed + BitVec.ofNat 32 state.notifications ∧ state.notifications < 2 ^ 32

/-- Work that came after the executor looked is announced, or will be. -/
structure Covered (state : ExecutorState) : Prop where
  noLocal : saw state.loop .localRing → state.queues.localQueue = []
  covered : ∀ work, saw state.loop work → present state work →
    state.notifications ≠ 0 ∨ ∃ thread, unannounced (state.producers thread) = true

def Announced (state : ExecutorState) : Prop :=
  state.loop = .epollWait true → state.notifications ≠ 0 →
    state.eventfd ≠ 0 ∨ ∃ thread, state.producers thread ≠ .idle

structure SleepInv (config : ExecutorConfig) (state : ExecutorState) : Prop where
  attributed : Attributed config state
  token : WakeToken state
  swallowed : Swallowed config state
  counted : Counted state
  covered : Covered state
  announced : Announced state

attribute [local grind] withProducer withQueues withLoop drains drowsy observedEpoch unannounced

section Producers

variable {thread : Nat} {pc : ProducerPc}

section

variable (token : WakeToken state)

include token

theorem WakeToken.keep (sameLoop : after.loop = state.loop)
    (samePending : after.ioWakePending = state.ioWakePending)
    (sameEvent : after.eventfd = state.eventfd)
    (newProducers : after.producers = update state.producers thread pc)
    (notBefore : state.producers thread ≠ .writeEvent) (notAfter : pc ≠ .writeEvent) :
    WakeToken after := by
  have sameWriters : ∀ other, after.producers other = .writeEvent ↔
      state.producers other = .writeEvent := by
    rw [newProducers]
    grind [update_apply]
  obtain ⟨alone, writer, readable, held, draining, reported, emptied⟩ := token
  constructor <;> simpa only [sameLoop, samePending, sameEvent, sameWriters]

theorem WakeToken.raise (lowered : state.ioWakePending = false) :
    WakeToken (withProducer { state with ioWakePending := true } thread .writeEvent) := by
  obtain ⟨alone, writer, readable, held, draining, reported, emptied⟩ := token
  -- with the flag down nobody is on the way to the eventfd
  constructor
  case held => exact fun _ => .inl ⟨thread, by simp [withProducer]⟩
  case alone | writer | readable | draining | reported | emptied =>
    dsimp only [withProducer]
    grind [update_apply]

theorem WakeToken.write (writes : state.producers thread = .writeEvent) :
    WakeToken (withProducer { state with eventfd := state.eventfd + 1 } thread .idle) := by
  obtain ⟨alone, writer, readable, held, draining, reported, emptied⟩ := token
  constructor <;> dsimp only [withProducer] <;> grind [update_apply]

theorem WakeToken.stepProducer (steps : stepProducer config state thread = some after)
    : WakeToken after := by
  unfold Executor.stepProducer at steps
  cases at_ : state.producers thread <;> simp only [at_] at steps <;> cases steps
  case casPending =>
    split
    · exact token.keep rfl rfl rfl rfl (by simp [at_]) (by simp)
    · rename_i lowered
      exact token.raise (by simpa using lowered)
  case writeEvent => exact token.write at_
  all_goals try split
  all_goals exact token.keep rfl rfl rfl rfl (by simp [at_]) (by grind)

/-- A raised `io_wake_pending_` outside of `drain_io_wake` stands for a readable
eventfd or a producer that is about to write it. -/
theorem WakeToken.of_raised (raised : state.ioWakePending = true)
    (notDraining : drains state.loop = false) :
    state.eventfd ≠ 0 ∨ ∃ thread, state.producers thread = .writeEvent := by
  rcases token.held raised with isWriting | isReadable | isDraining
  · exact .inr isWriting
  · exact .inl isReadable
  · simp [notDraining] at isDraining

end

theorem Attributed.proceed (attributed : Attributed config state)
    (busy : state.producers thread ≠ .idle)
    (sameSpsc : after.queues.spscQueues = state.queues.spscQueues)
    (cells : ∀ cell ∈ after.queues.externalQueue, ∀ other, cell.writer = some other →
      other ≠ thread ∧ cell ∈ state.queues.externalQueue)
    (noBackend : pc = .notifyOne → config.ioBackend = false)
    (sameLoop : after.loop = state.loop)
    (newProducers : after.producers = update state.producers thread pc) :
    Attributed config after := by
  obtain ⟨writers, sources, self, backend, wasNoBackend⟩ := attributed
  constructor <;> simp only [newProducers, sameSpsc, sameLoop] <;> grind [update_apply]

theorem Attributed.stepProducer (attributed : Attributed config state)
    (steps : stepProducer config state thread = some after) : Attributed config after := by
  -- A thread that does not publish has no unpublished position.
  have others : state.producers thread ≠ .publish →
      ∀ cell ∈ state.queues.externalQueue, ∀ other, cell.writer = some other →
        other ≠ thread ∧ cell ∈ state.queues.externalQueue := by
    intro notPublishing cell inside other isWriter
    refine ⟨?_, inside⟩
    rintro rfl
    exact notPublishing (attributed.writers cell inside other isWriter)
  unfold Executor.stepProducer at steps
  cases at_ : state.producers thread <;> simp only [at_] at steps <;> cases steps
  case publish =>
    refine attributed.proceed (by simp [at_]) rfl ?_ (by simp) rfl rfl
    intro cell inside other isWriter
    grind [publishBy]
  all_goals try split
  all_goals
    exact attributed.proceed (by simp [at_]) rfl (others (by simp [at_])) (by grind) rfl rfl

theorem Swallowed.proceed (swallowed : Swallowed config state)
    (sameLoop : after.loop = state.loop) (sameSleeping : after.sleeping = state.sleeping)
    (stillRaised : state.ioWakePending = true → after.ioWakePending = true)
    (notNative : state.producers thread ≠ .casPending)
    (newProducers : after.producers = update state.producers thread pc) :
    Swallowed config after := by
  unfold Swallowed
  rw [sameLoop, sameSleeping, newProducers]
  intro hasBackend isDrowsy notSleeping
  refine (swallowed hasBackend isDrowsy notSleeping).imp stillRaised ?_
  rintro ⟨other, isNative⟩
  exact ⟨other, by grind [update_apply]⟩

theorem Swallowed.stepProducer (swallowed : Swallowed config state)
    (steps : stepProducer config state thread = some after) : Swallowed config after := by
  unfold Executor.stepProducer at steps
  cases at_ : state.producers thread <;> simp only [at_] at steps <;> cases steps
  case casSleeping =>
    split
    · exact fun _ _ _ => .inr ⟨thread, by simp [withProducer]⟩
    · exact swallowed.proceed rfl rfl id (by simp [at_]) rfl
  case casPending =>
    split
    · rename_i raised
      exact fun _ _ _ => .inl raised
    · exact fun _ _ _ => .inl rfl
  all_goals exact swallowed.proceed rfl rfl id (by simp [at_]) rfl

theorem Counted.stepProducer (counted : Counted state)
    (fits : fewNotifications state (.producer thread))
    (steps : stepProducer config state thread = some after) : Counted after := by
  unfold Executor.stepProducer at steps
  cases at_ : state.producers thread <;> simp only [at_] at steps <;> cases steps
  case bump force =>
    intro observed isObserved
    have isObserved : observedEpoch state.loop = some observed := isObserved
    refine ⟨?_, fits (by simp [isObserved])⟩
    simp only [withProducer, (counted observed isObserved).1, BitVec.ofNat_add, BitVec.add_assoc]
    rfl
  all_goals try split
  all_goals exact counted

theorem Counted.not_notified (counted : Counted state) {observed : BitVec 32}
    (isObserved : observedEpoch state.loop = some observed) (same : state.wakeEpoch = observed) :
    state.notifications = 0 := by
  obtain ⟨epoch, few⟩ := counted observed isObserved
  rw [same] at epoch
  have value := congrArg BitVec.toNat (BitVec.self_eq_add_right.mp epoch)
  rwa [BitVec.toNat_ofNat, Nat.mod_eq_of_lt few] at value

theorem Covered.proceed (covered : Covered state) (sameLoop : after.loop = state.loop)
    (sameLocal : after.queues.localQueue = state.queues.localQueue)
    (noWork : ∀ work, present after work → present state work)
    (counts : state.notifications ≤ after.notifications)
    (announces : unannounced (state.producers thread) = true →
      unannounced pc = true ∨ after.notifications ≠ 0)
    (newProducers : after.producers = update state.producers thread pc) :
    Covered after := by
  refine ⟨by rw [sameLoop, sameLocal]; exact covered.noLocal, fun work isSeen isPresent => ?_⟩
  rw [sameLoop] at isSeen
  rw [newProducers]
  rcases covered.covered work isSeen (noWork work isPresent) with notified | ⟨other, isOpen⟩
  · exact .inl (by omega)
  · by_cases here : other = thread
    · subst here
      exact (announces isOpen).symm.imp_right fun stillOpen => ⟨other, by rwa [update_self]⟩
    · exact .inr ⟨other, by rwa [update_of_ne here]⟩

theorem Covered.stepProducer (covered : Covered state)
    (steps : stepProducer config state thread = some after) : Covered after := by
  unfold Executor.stepProducer at steps
  cases at_ : state.producers thread <;> simp only [at_] at steps <;> cases steps
  case publish =>
    refine covered.proceed rfl rfl (fun work isPresent => ?_) (Nat.le_refl _)
      (fun _ => .inl rfl) rfl
    cases work <;> simpa [present, withProducer, withQueues] using isPresent
  case bump force =>
    exact covered.proceed rfl rfl (fun work isPresent => by cases work <;> exact isPresent)
      (Nat.le_succ _) (fun _ => .inr (Nat.succ_ne_zero _)) rfl
  all_goals try split
  all_goals
    exact covered.proceed rfl rfl (fun work isPresent => by cases work <;> exact isPresent)
      (Nat.le_refl _) (by grind) rfl

section

variable (inv : SleepInv config state)

include inv

theorem SleepInv.left_to_another (isWaiting : state.loop = .epollWait true)
    (settled : state.ioWakePending = true ∨ state.sleeping = false)
    (notNative : state.producers thread ≠ .casPending ∨ state.ioWakePending = true)
    (notWriting : state.producers thread ≠ .writeEvent) : state.eventfd ≠ 0 ∨
      ∃ other, update state.producers thread .idle other ≠ .idle := by
  have handled : state.ioWakePending = true ∨
      ∃ other ≠ thread, state.producers other = .casPending := by
    have swallowed := inv.swallowed (inv.attributed.backend true isWaiting) (by rw [isWaiting]; rfl)
    grind
  rcases handled with raised | ⟨other, different, isNative⟩
  · rcases inv.token.of_raised raised (by rw [isWaiting]; rfl) with isReadable | ⟨other, writes⟩
    · exact .inl isReadable
    · exact .inr ⟨other, by grind [update_apply]⟩
  · exact .inr ⟨other, by simp [update_of_ne different, isNative]⟩

theorem SleepInv.announced_stepProducer (steps : stepProducer config state thread = some after)
    : Announced after := by
  have stillBusy : ∀ {after : ExecutorState} {pc : ProducerPc}, pc ≠ .idle →
      after.producers = update state.producers thread pc → Announced after := by
    intro after pc busy newProducers _ _
    exact .inr ⟨thread, by rw [newProducers, update_self]; exact busy⟩
  unfold Executor.stepProducer at steps
  cases at_ : state.producers thread <;> simp only [at_] at steps
  case idle => cases steps
  case loadSleeping | casSleeping =>
    cases steps
    by_cases isSleeping : state.sleeping = true
    · rw [if_pos isSleeping]
      exact stillBusy (by simp) rfl
    · rw [if_neg isSleeping]
      intro isWaiting _
      exact inv.left_to_another isWaiting (.inr (by simpa using isSleeping))
        (.inl (by simp [at_])) (by simp [at_])
  case casPending =>
    cases steps
    split
    · rename_i raised
      intro isWaiting _
      exact inv.left_to_another isWaiting (.inl raised) (.inr raised) (by simp [at_])
    · exact stillBusy (by simp) rfl
  case writeEvent =>
    cases steps
    exact fun _ _ => .inl (Nat.succ_ne_zero _)
  case notifyOne =>
    cases steps
    intro isWaiting _
    have hasBackend := inv.attributed.backend true isWaiting
    simp [inv.attributed.noBackend thread at_] at hasBackend
  case publish | markReady | storeExternalReady | loadExternalReady | bump force =>
    cases steps
    exact stillBusy (by grind) rfl

theorem SleepInv.stepProducer (fits : fewNotifications state (.producer thread))
    (steps : stepProducer config state thread = some after) : SleepInv config after where
  attributed := inv.attributed.stepProducer steps
  token := inv.token.stepProducer steps
  swallowed := inv.swallowed.stepProducer steps
  counted := inv.counted.stepProducer fits steps
  covered := inv.covered.stepProducer steps
  announced := inv.announced_stepProducer steps

theorem SleepInv.call {queues : ReadyQueues} {stop : Bool}
    (callable : canCall config state thread = true) (isOpen : unannounced pc = true)
    (sameLocal : queues.localQueue = state.queues.localQueue)
    (writers : ∀ cell ∈ queues.externalQueue, ∀ other, cell.writer = some other →
      other = thread ∧ pc = .publish ∨ cell ∈ state.queues.externalQueue)
    (sources : ∀ source, queues.spscQueues source ≠ [] →
      source < config.runtime.threadCount ∧ source ≠ config.index) : SleepInv config { state with
      queues := queues
      stopRequested := stop
      producers := update state.producers thread pc } := by
  obtain ⟨isIdle, mayCall⟩ : state.producers thread = .idle ∧
      (thread ≠ config.index ∨ userCode state.loop = true) := by
    simpa [canCall] using callable
  refine ⟨?_, inv.token.keep rfl rfl rfl rfl (by simp [isIdle]) (by grind),
    inv.swallowed.proceed rfl rfl id (by simp [isIdle]) rfl, inv.counted, ?_,
    fun _ _ => .inr ⟨thread, by grind [update_self]⟩⟩
  · obtain ⟨oldWriters, _, self, backend, noBackend⟩ := inv.attributed
    constructor <;> dsimp only <;> grind [update_apply]
  · refine ⟨fun isSeen => sameLocal.trans (inv.covered.noLocal isSeen), fun _ _ _ => .inr ?_⟩
    exact ⟨thread, by simpa only [update_self] using isOpen⟩

theorem SleepInv.ownRing (isUserCode : userCode state.loop = true) (ring : List TaskId) :
    SleepInv config (withQueues state { state.queues with localQueue := ring }) := by
  have blind : ∀ work, ¬ saw state.loop work := by
    intro work isSeen
    cases at_ : state.loop <;> simp [at_, userCode, saw] at isUserCode isSeen
  exact ⟨{ inv.attributed with }, { inv.token with }, inv.swallowed, inv.counted,
    ⟨fun isSeen => absurd isSeen (blind _), fun work isSeen => absurd isSeen (blind work)⟩,
    inv.announced⟩

end

end Producers

section Loop

variable {scan : ScanPc} {queues queues' : ReadyQueues}

theorem mem_of_stepScan {cell : ExternalCell}
    (inside : cell ∈ (stepScan config queues scan).1.externalQueue) :
    cell ∈ queues.externalQueue := by
  cases scan <;> simp only [stepScan] at inside <;>
    grind [tryPopExternal, withReady, withSpsc, advanceMasked, advanceSource, advanceReadyWord]

theorem ne_nil_of_stepScan {source : Nat}
    (filled : (stepScan config queues scan).1.spscQueues source ≠ []) :
    queues.spscQueues source ≠ [] := by
  have sameSpsc : (tryPopExternal queues).1.spscQueues = queues.spscQueues := by
    unfold tryPopExternal
    split <;> rfl
  have popped : ∀ other rest, queues.spscQueues other ≠ [] →
      update queues.spscQueues other rest source ≠ [] → queues.spscQueues source ≠ [] := by
    grind [update_apply]
  cases scan with
  | tryFallback sources =>
    cases sources <;> simp only [stepScan] at filled <;> (try split at filled) <;>
      first | exact filled | exact popped _ _ (by simp_all) filled
  | _ =>
    simp only [stepScan] at filled
    (try split at filled) <;>
      first | exact filled | exact popped _ _ (by simp_all) filled | exact sameSpsc ▸ filled | grind

theorem drowsy_of_saw {pc : LoopPc} {work : Work} (isSeen : saw pc work) : drowsy pc = true := by
  unfold saw at isSeen
  split at isSeen <;> first | rfl | exact isSeen.elim

theorem SleepInv.of_calm (attributed : Attributed config after)
    (token : WakeToken after) (notDrowsy : drowsy after.loop = false)
    (noEpoch : observedEpoch after.loop = none) : SleepInv config after where
  attributed := attributed
  token := token
  swallowed := fun _ isDrowsy => by simp [notDrowsy] at isDrowsy
  counted := fun observed isObserved => by simp [noEpoch] at isObserved
  covered := by
    have blind : ∀ work, ¬ saw after.loop work := by
      intro work isSeen
      simp [drowsy_of_saw isSeen] at notDrowsy
    exact ⟨fun isSeen => absurd isSeen (blind _), fun work isSeen => absurd isSeen (blind work)⟩
  announced := fun isWaiting => by simp [isWaiting, drowsy] at notDrowsy

theorem Attributed.loopStep (attributed : Attributed config state)
    (ownIdle : state.producers config.index = .idle)
    (sameProducers : after.producers = state.producers)
    (cells : ∀ cell ∈ after.queues.externalQueue, cell ∈ state.queues.externalQueue)
    (filled : ∀ source, after.queues.spscQueues source ≠ [] → state.queues.spscQueues source ≠ [])
    (backend : ∀ blocks, after.loop = .epollWait blocks → config.ioBackend = true) :
    Attributed config after where
  writers := fun cell inside => by
    rw [sameProducers]
    exact attributed.writers cell (cells cell inside)
  sources := fun source isFilled => attributed.sources source (filled source isFilled)
  self := fun isBusy => by
    rw [sameProducers] at isBusy
    exact absurd ownIdle isBusy
  backend := backend
  noBackend := by
    rw [sameProducers]
    exact attributed.noBackend

theorem WakeToken.loopStep (token : WakeToken state)
    (samePending : after.ioWakePending = state.ioWakePending)
    (sameEvent : after.eventfd = state.eventfd)
    (sameProducers : after.producers = state.producers)
    (notDraining : drains state.loop = false) (stillNot : drains after.loop = false)
    (reported : ∀ blocks didWork, after.loop = .events blocks true didWork →
      state.eventfd ≠ 0) : WakeToken after := by
  obtain ⟨alone, writer, readable, held, _, _, _⟩ := token
  constructor <;> simp only [sameProducers, samePending, sameEvent] <;> grind

theorem mem_fallbackSources {source : Nat} (valid : source < config.runtime.threadCount)
    (other : source ≠ config.index) : source ∈ fallbackSources config queues := by
  have bound := Nat.mod_lt queues.nextSource (by omega : 0 < config.runtime.threadCount)
  refine mem_filter.mpr ⟨mem_map.mpr
    ⟨(source + (config.runtime.threadCount - queues.nextSource % config.runtime.threadCount)) %
      config.runtime.threadCount, ?_, ?_⟩, by simpa using other⟩
  · exact mem_range.mpr (Nat.mod_lt _ (by omega))
  · rw [Nat.add_mod_mod, ← Nat.mod_add_mod, show queues.nextSource % config.runtime.threadCount +
      (source + (config.runtime.threadCount - queues.nextSource % config.runtime.threadCount)) =
      source + config.runtime.threadCount by omega, Nat.add_mod_right, Nat.mod_eq_of_lt valid]

theorem not_fallbackSaw_nextMasked {checked source : Nat} (mask : List Nat) :
    ¬ fallbackSaw (nextMasked config checked mask) source := by
  induction mask with
  | nil => exact id
  | cons first mask ih =>
    unfold nextMasked
    split
    · exact ih
    · exact id

theorem scanSaw_goOn (attributed : Attributed config state) {next : ScanPc} {pc : LoopPc}
    (scans : stepScan config state.queues scan = (queues, .goOn next)) {work : Work}
    (isSeen : scanSaw next work)
    (isPresent : present { state with queues := queues, loop := pc } work) :
    scanSaw scan work ∧ present state work := by
  cases work with
  | localRing =>
    cases scan <;> simp only [stepScan] at scans <;>
      grind [present, scanSaw, tryPopExternal, withReady, advanceMasked, advanceSource,
        advanceReadyWord, withSpsc]
  | spsc source =>
    have before : state.queues.spscQueues source ≠ [] := by
      refine @ne_nil_of_stepScan config scan state.queues source ?_
      rw [scans]
      exact isPresent
    refine ⟨?_, before⟩
    have isSeen : fallbackSaw next source := isSeen
    obtain ⟨valid, other⟩ := attributed.sources source before
    have listed := @mem_fallbackSources config state.queues source valid other
    change fallbackSaw scan source
    cases scan <;> simp only [stepScan] at scans <;>
      grind [present, fallbackSaw, not_fallbackSaw_nextMasked]
  | external => exact isSeen.elim
  | stop => exact ⟨trivial, isPresent⟩

theorem tryPopExternal_none (fails : (tryPopExternal queues).2 = none) :
    (tryPopExternal queues).1 = queues ∧
      ∀ cell ∈ queues.externalQueue.head?, cell.writer ≠ none := by
  unfold tryPopExternal at fails ⊢
  split at fails
  · cases fails
  · rename_i notPublished
    refine ⟨rfl, fun cell isFirst published => ?_⟩
    obtain ⟨cells, isQueue⟩ := head?_eq_some_iff.mp isFirst
    obtain ⟨task, writer⟩ := cell
    subst published
    exact notPublished task cells isQueue

/-- A `pop_one` returns nothing only at its end, with the external queue empty or
its first position not yet published. -/
theorem stepScan_none (scans : stepScan config queues scan = (queues', .result none)) :
    scan = .tryExternal ∧ queues' = queues ∧
      ∀ cell ∈ queues.externalQueue.head?, cell.writer ≠ none := by
  cases scan with
  | tryExternal =>
    simp only [stepScan, Prod.mk.injEq, ScanOutcome.result.injEq] at scans
    obtain ⟨same, notPublished⟩ := tryPopExternal_none scans.2
    exact ⟨rfl, scans.1.symm.trans same, notPublished⟩
  | _ => simp only [stepScan] at scans; grind

theorem SleepInv.settleStep (inv : SleepInv config state) {observed : BitVec 32}
    (isSettling : state.loop = .settle observed scan)
    (ownIdle : state.producers config.index = .idle) :
    SleepInv config (stepPopOne config state scan (.settle observed) fun
      | some _ => .clearSleeping true
      | none => .recheckEpoch observed) := by
  have cells := fun cell => @mem_of_stepScan config scan state.queues cell
  have filled := fun source => @ne_nil_of_stepScan config scan state.queues source
  have counted := inv.counted observed (by rw [isSettling]; rfl)
  unfold stepPopOne
  rcases scans : stepScan config state.queues scan with ⟨queues, outcome⟩
  rw [scans] at cells filled
  have attributed : ∀ pc, (∀ blocks, pc ≠ .epollWait blocks) →
      Attributed config { state with queues := queues, loop := pc } := fun pc awake =>
    inv.attributed.loopStep ownIdle rfl cells filled fun blocks atWait =>
      absurd atWait (awake blocks)
  have token : ∀ pc, drains pc = false → (∀ blocks wake didWork, pc ≠ .events blocks wake didWork) →
      WakeToken { state with queues := queues, loop := pc } := fun pc notDraining noEvents =>
    inv.token.loopStep rfl rfl rfl (by rw [isSettling]; rfl) notDraining
      fun blocks didWork atEvents => absurd atEvents (noEvents blocks true didWork)
  have swallowed := fun hasBackend =>
    inv.swallowed hasBackend (by rw [isSettling]; rfl)
  cases outcome with
  | goOn next =>
    refine ⟨attributed _ (by simp), token _ rfl (by simp), fun hasBackend _ => swallowed hasBackend,
      ?_, ?_, by simp [Announced]⟩
    · rintro _ ⟨⟩
      exact counted
    · constructor
      · intro isSeen
        by_contra filledRing
        have before := @scanSaw_goOn _ _ _ _ inv.attributed _ (.settle observed next)
          scans .localRing isSeen filledRing
        exact before.2 (inv.covered.noLocal (by rw [isSettling]; exact before.1))
      · intro work isSeen isPresent
        have before := scanSaw_goOn inv.attributed scans isSeen isPresent
        exact inv.covered.covered work (by rw [isSettling]; exact before.1) before.2
  | result task =>
    cases task with
    | some task =>
      exact .of_calm (attributed _ (by simp)) (token _ rfl (by simp)) rfl rfl
    | none =>
      obtain ⟨atEnd, sameQueues, notPublished⟩ := stepScan_none scans
      subst atEnd sameQueues
      refine ⟨attributed _ (by simp), token _ rfl (by simp),
        fun hasBackend _ => swallowed hasBackend, ?_, ?_, by simp [Announced]⟩
      · rintro _ ⟨⟩
        exact counted
      · have noLocal := inv.covered.noLocal (by rw [isSettling]; simp [saw, scanSaw])
        refine ⟨fun _ => noLocal, fun work _ isPresent => ?_⟩
        cases work with
        | localRing => exact absurd noLocal isPresent
        | spsc source =>
          exact inv.covered.covered (.spsc source) (by rw [isSettling]; exact True.intro) isPresent
        | stop => exact inv.covered.covered .stop (by rw [isSettling]; exact True.intro) isPresent
        | external =>
          -- The first position is reserved, and its writer is on the way.
          obtain ⟨cell, cells, isQueue⟩ := exists_cons_of_ne_nil isPresent
          obtain ⟨thread, isWriter⟩ := ne_none_iff_exists'.mp
            (notPublished cell (by rw [isQueue]; rfl))
          have publishes := inv.attributed.writers cell (by rw [isQueue]; simp) thread
            isWriter
          exact .inr ⟨thread, by simp [publishes, unannounced]⟩

theorem WakeToken.noWriter (token : WakeToken state)
    (emptying : drains state.loop = true ∨ state.eventfd ≠ 0) (thread : Nat) :
    state.producers thread ≠ .writeEvent := by
  grind [token.writer]

theorem WakeToken.drained (token : WakeToken state) {blocks : Bool}
    (atStore : state.loop = .drainStore blocks) :
    WakeToken { state with ioWakePending := false, loop := .events blocks false true } := by
  have noWriter := token.noWriter (.inl (by rw [atStore]; rfl))
  have empty := token.emptied blocks atStore
  constructor <;> grind

theorem WakeToken.drainRead (token : WakeToken state) {blocks : Bool}
    (atRead : state.loop = .drainRead blocks) :
    WakeToken (if state.eventfd = 0 then withLoop state (.drainStore blocks)
      else { state with eventfd := 0, loop := .drainRead blocks }) := by
  have noWriter := token.noWriter (.inl (by rw [atRead]; rfl))
  have raised := token.draining (by rw [atRead]; rfl)
  unfold withLoop
  split <;> constructor <;> grind

theorem WakeToken.beginDrain (token : WakeToken state) {blocks didWork : Bool}
    (atEvents : state.loop = .events blocks true didWork) :
    WakeToken (withLoop state (.drainRead blocks)) := by
  have isReadable := token.reported blocks didWork atEvents
  have noWriter := token.noWriter (.inr isReadable)
  have raised := token.readable isReadable
  unfold withLoop
  constructor <;> grind

theorem SleepInv.stepLoop (inv : SleepInv config state)
    (ownIdle : state.producers config.index = .idle) {poll : Poll}
    (steps : stepLoop config state poll = some after) : SleepInv config after := by
  -- The common case: the queues stay and no wait begins.
  have calm : ∀ pc, drains state.loop = false ∧ drains pc = false ∧ drowsy pc = false ∧
      observedEpoch pc = none ∧ (∀ blocks, pc = .epollWait blocks → config.ioBackend = true) ∧
      (∀ blocks didWork, pc = .events blocks true didWork → state.eventfd ≠ 0) →
      SleepInv config (withLoop state pc) := by
    rintro pc ⟨notDraining, stillNot, notDrowsy, noEpoch, backend, reported⟩
    exact .of_calm (inv.attributed.loopStep ownIdle rfl (fun _ => id) (fun _ => id) backend)
      (inv.token.loopStep rfl rfl rfl notDraining stillNot reported) notDrowsy noEpoch
  have attributed : ∀ {after : ExecutorState}, after.producers = state.producers →
      after.queues = state.queues → (∀ blocks, after.loop = .epollWait blocks →
        config.ioBackend = true) → Attributed config after :=
    fun sameProducers sameQueues => inv.attributed.loopStep ownIdle sameProducers
      (by rw [sameQueues]; exact fun _ => id) (by rw [sameQueues]; exact fun _ => id)
  have reported := inv.token.reported
  unfold Executor.stepLoop at steps
  cases at_ : state.loop <;> simp only [at_] at steps
  case drain didWork scan =>
    cases steps
    have cells := fun cell => @mem_of_stepScan config scan state.queues cell
    have filled := fun source => @ne_nil_of_stepScan config scan state.queues source
    unfold stepPopOne
    rcases scans : stepScan config state.queues scan with ⟨queues, outcome⟩
    rw [scans] at cells filled
    have goes : ∀ pc, drains pc = false ∧ drowsy pc = false ∧ observedEpoch pc = none ∧
        (∀ blocks, pc ≠ .epollWait blocks) ∧
        (∀ blocks wake didWork, pc ≠ .events blocks wake didWork) →
        SleepInv config { state with queues := queues, loop := pc } := by
      rintro pc ⟨stillNot, notDrowsy, noEpoch, awake, noEvents⟩
      exact .of_calm (inv.attributed.loopStep ownIdle rfl cells filled
          fun blocks atWait => absurd atWait (awake blocks))
        (inv.token.loopStep rfl rfl rfl (by rw [at_]; rfl) stillNot
          fun blocks didWork atEvents => absurd atEvents (noEvents blocks true didWork))
        notDrowsy noEpoch
    cases outcome with
    | goOn next => exact goes _ (by grind)
    | result task => cases task <;> exact goes _ (by grind)
  case execute again | checkStop didWork | pollPending =>
    cases steps
    exact calm _ (by grind [loopTop])
  case epollWait blocks =>
    split at steps
    · cases steps
      exact calm _ (by grind [reportsWake])
    · split at steps
      · cases steps
        exact calm _ (by grind [afterPoll])
      · cases steps
  case events blocks wake didWork =>
    split at steps
    · rename_i wakes
      cases steps
      obtain rfl : wake = true := wakes.1
      exact .of_calm (attributed rfl rfl (by simp [withLoop])) (inv.token.beginDrain at_) rfl rfl
    · split at steps
      · cases steps
        exact calm _ (by grind)
      · split at steps
        · cases steps
        · cases steps
          exact calm _ (by grind [afterPoll, loopTop])
  case drainRead blocks =>
    cases steps
    refine .of_calm ?_ (inv.token.drainRead at_) ?_ ?_
    · split <;> exact attributed rfl rfl (by simp [withLoop])
    all_goals split <;> rfl
  case drainStore blocks =>
    cases steps
    exact .of_calm (attributed rfl rfl (by simp)) (inv.token.drained at_) rfl rfl
  case loadEpoch =>
    cases steps
    refine ⟨attributed rfl rfl (by simp), ?_, by simp [Swallowed, drowsy], ?_, ?_,
      by simp [Announced]⟩
    · exact inv.token.loopStep rfl rfl rfl (by rw [at_]; rfl) rfl (by simp)
    · rintro _ ⟨⟩
      exact ⟨(BitVec.add_zero _).symm, by simp⟩
    · exact ⟨fun isSeen => isSeen.elim, fun _ isSeen => isSeen.elim⟩
  case storeSleeping observed =>
    cases steps
    refine ⟨attributed rfl rfl (by simp), ?_, by simp [Swallowed], ?_, ?_, by simp [Announced]⟩
    · exact inv.token.loopStep rfl rfl rfl (by rw [at_]; rfl) rfl (by simp)
    · rintro _ ⟨⟩
      exact inv.counted observed (by rw [at_]; rfl)
    · exact ⟨fun isSeen => isSeen.elim, fun _ isSeen => isSeen.elim⟩
  case recheckStop observed =>
    cases steps
    by_cases isStopped : state.stopRequested = true
    · rw [if_pos isStopped]
      exact calm _ (by grind)
    · rw [if_neg isStopped]
      refine ⟨attributed rfl rfl (by simp [withLoop]), ?_, ?_, ?_, ?_,
        by simp [Announced, withLoop]⟩
      · exact inv.token.loopStep rfl rfl rfl (by rw [at_]; rfl) rfl (by simp [withLoop])
      · exact fun hasBackend _ => inv.swallowed hasBackend (by rw [at_]; rfl)
      · rintro _ ⟨⟩
        exact inv.counted observed (by rw [at_]; rfl)
      · refine ⟨fun isSeen => absurd rfl isSeen, fun work isSeen isPresent => ?_⟩
        cases work with
        | localRing => exact absurd rfl isSeen
        | spsc source => exact isSeen.elim
        | external => exact isSeen.elim
        | stop => exact absurd isPresent isStopped
  case settle observed scan =>
    cases steps
    exact inv.settleStep at_ ownIdle
  case recheckEpoch observed =>
    cases steps
    have counted := inv.counted observed (by rw [at_]; rfl)
    have covered : ∀ pc, Covered (withLoop state pc) := fun pc =>
      ⟨fun _ => inv.covered.noLocal (by rw [at_]; exact True.intro), fun work _ isPresent =>
        inv.covered.covered work (by rw [at_]; exact True.intro) (by cases work <;> exact isPresent)⟩
    split
    · exact calm _ (by grind)
    · rename_i sameEpoch
      split
      · rename_i hasBackend
        refine ⟨attributed rfl rfl fun _ _ => hasBackend, ?_, ?_, ?_, covered _, ?_⟩
        · exact inv.token.loopStep rfl rfl rfl (by rw [at_]; rfl) rfl (by simp [withLoop])
        · exact fun hasBackend _ => inv.swallowed hasBackend (by rw [at_]; rfl)
        · rintro _ ⟨⟩
        · -- Nobody has announced anything so far.
          exact fun _ notified => absurd
            (inv.counted.not_notified (by rw [at_]; rfl) (not_not.mp sameEpoch)) notified
      · refine ⟨attributed rfl rfl (by simp [withLoop]), ?_, ?_, ?_, covered _,
          by simp [Announced, withLoop]⟩
        · exact inv.token.loopStep rfl rfl rfl (by rw [at_]; rfl) rfl (by simp [withLoop])
        · exact fun hasBackend _ => inv.swallowed hasBackend (by rw [at_]; rfl)
        · rintro _ ⟨⟩
          exact counted
  case futexWait observed =>
    cases (Option.ite_none_right_eq_some.mp steps).2
    exact calm _ (by grind)
  case clearSleeping executes =>
    cases steps
    refine .of_calm (attributed rfl rfl ?_) (inv.token.loopStep rfl rfl rfl (by rw [at_]; rfl)
      ?_ ?_) ?_ ?_ <;> cases executes <;> simp [loopTop, drains, drowsy, observedEpoch]
  case returned => cases steps

end Loop

theorem SleepInv.step (inv : SleepInv config state) {action : Action}
    (fits : fewNotifications state action) (steps : step config state action = some after) :
    SleepInv config after := by
  cases action <;> simp only [Executor.step, ite_none_right_eq_some] at steps
  case loop poll => exact inv.stepLoop steps.1 steps.2
  case pushLocal task | popLocal =>
    obtain ⟨⟨callable, _⟩, result⟩ := steps
    cases result
    refine inv.ownRing ?_ _
    simpa [canCall] using (Bool.and_eq_true_iff.mp callable).2
  case pushSpsc source task =>
    obtain ⟨⟨callable, valid, other, _⟩, result⟩ := steps
    cases result
    refine inv.call callable rfl rfl (fun _ inside _ _ => .inr inside) fun filled isFilled => ?_
    by_cases here : filled = source
    · exact here ▸ ⟨valid, other⟩
    · simp only [withQueues, withSpsc, update_of_ne here] at isFilled
      exact inv.attributed.sources filled isFilled
  case pushExternal thread task =>
    obtain ⟨⟨callable, _⟩, result⟩ := steps
    cases result
    refine inv.call callable rfl rfl (fun cell inside other isWriter => ?_) inv.attributed.sources
    rcases mem_append.mp inside with before | isNew
    · exact .inr before
    · obtain rfl := mem_singleton.mp isNew
      exact .inl ⟨(Option.some.inj isWriter).symm, rfl⟩
  case requestStop thread =>
    obtain ⟨⟨callable, _⟩, result⟩ := steps
    cases result
    exact inv.call callable rfl rfl (fun _ inside _ _ => .inr inside) inv.attributed.sources
  case producer thread => exact inv.stepProducer fits steps

theorem sleepInv_of_reachable (reached : (system config).ReachableUnder fewNotifications state) :
    SleepInv config state := by
  refine reached.invariant ?_ fun _ _ _ _ inv fits steps => inv.step fits steps
  rintro state rfl
  refine .of_calm ⟨?_, ?_, ?_, ?_, ?_⟩ ⟨?_, ?_, ?_, ?_, ?_, ?_, ?_⟩ rfl rfl <;>
    simp [start, loopTop, drains]

def blocked : LoopPc → Bool
  | .futexWait _ | .epollWait true => true
  | .drain _ _ | .execute _ | .checkStop _ | .pollPending | .epollWait false | .events _ _ _
  | .drainRead _ | .drainStore _ | .loadEpoch | .storeSleeping _ | .recheckStop _ | .settle _ _
  | .recheckEpoch _ | .clearSleeping _ | .returned => false

/-- The wait returns without a further notification. -/
def dueToReturn (state : ExecutorState) : LoopPc → Prop
  | .futexWait observed => state.wakeEpoch ≠ observed
  | _ => state.eventfd ≠ 0

/-- While an executor is blocked although there is a task in a queue, or the stop flag
is set, the wait is due to return or a thread has not finished its notification.  The
eventfd is readable only while `io_wake_pending_` is up. -/
theorem no_sleep_on_work (reached : (system config).ReachableUnder fewNotifications state) :
    (blocked state.loop = true → ∀ work, present state work →
      (∃ thread, state.producers thread ≠ .idle) ∨ dueToReturn state state.loop) ∧
    (state.eventfd ≠ 0 → state.ioWakePending = true) := by
  have inv := sleepInv_of_reachable reached
  refine ⟨fun isBlocked work isPresent => ?_, inv.token.readable⟩
  have covered : saw state.loop work →
      state.notifications ≠ 0 ∨ ∃ thread, state.producers thread ≠ .idle := by
    intro isSeen
    refine (inv.covered.covered work isSeen isPresent).imp_right ?_
    rintro ⟨thread, isOpen⟩
    exact ⟨thread, fun isIdle => by simp [isIdle, unannounced] at isOpen⟩
  cases at_ : state.loop with
  | futexWait observed =>
    rcases covered (by rw [at_]; exact True.intro) with notified | busy
    · exact .inr fun same => notified (inv.counted.not_notified (by rw [at_]; rfl) same)
    · exact .inl busy
  | epollWait blocks =>
    obtain rfl : blocks = true := by
      cases blocks with
      | false => simp [at_, blocked] at isBlocked
      | true => rfl
    rcases covered (by rw [at_]; exact True.intro) with notified | busy
    · exact (inv.announced at_ notified).symm
    · exact .inl busy
  | _ => simp [at_, blocked] at isBlocked

def quiet : Poll where
  registered := false
  wake := false
  others := false
  works := false
  interrupted := false

def soleExecutor : ExecutorConfig where
  runtime := { Scheduler.twoExecutors .reject with threadCount := 1, threadCount_le := by decide }
  index := 0
  ioBackend := true

/-- The executor goes to sleep, and an external thread pushes a task and wakes
it. -/
def wokenByPush : List Action :=
  List.replicate 18 (.loop quiet) ++ .pushExternal 1 0 :: List.replicate 6 (.producer 1)

theorem wokenByPush_due : ∃ state, (system soleExecutor).ReachableUnder fewNotifications state ∧
      (blocked state.loop = true ∧ state.queues.externalQueue = [⟨0, none⟩]) ∧
      ((∃ thread, state.producers thread ≠ .idle) ∨ dueToReturn state state.loop) ∧
      (state.eventfd ≠ 0 → state.ioWakePending = true) := by
  obtain ⟨state, reached, isBlocked, holds⟩ :=
    (system soleExecutor).exists_reachableUnder fewNotifications rfl wokenByPush
    (fun state => blocked state.loop = true ∧ state.queues.externalQueue = [⟨0, none⟩])
    (by decide)
  obtain ⟨wakes, raised⟩ := no_sleep_on_work reached
  have isPresent : present state .external := by simp [present, holds]
  exact ⟨state, reached, ⟨isBlocked, holds⟩, wakes isBlocked .external isPresent, raised⟩

/-- One producer at a time is about to write the eventfd and finds it empty, so the
write never waits; and a producer that leaves the write to others because
`io_wake_pending_` is up can rely on a write, a readable eventfd or its drain. -/
theorem wake_event_single (reached : (system config).ReachableUnder fewNotifications state) :
    (∀ thread other, state.producers thread = .writeEvent →
      state.producers other = .writeEvent → thread = other) ∧
    (∀ thread, state.producers thread = .writeEvent → state.eventfd = 0) ∧
    (state.ioWakePending = true ↔ (∃ thread, state.producers thread = .writeEvent) ∨
      state.eventfd ≠ 0 ∨ drains state.loop = true) := by
  have token := (sleepInv_of_reachable reached).token
  refine ⟨token.alone, fun thread writes => (token.writer thread writes).2.1, token.held, ?_⟩
  rintro (⟨thread, writes⟩ | isReadable | isDraining)
  · exact (token.writer thread writes).1
  · exact token.readable isReadable
  · exact token.draining isDraining

theorem wake_event_single_woken : ∃ state,
    (system soleExecutor).ReachableUnder fewNotifications state ∧
      state.producers 1 = .writeEvent ∧ state.eventfd = 0 := by
  obtain ⟨state, reached, writes⟩ := (system soleExecutor).exists_reachableUnder fewNotifications
    rfl (List.replicate 18 (.loop quiet) ++ .pushExternal 1 0 :: List.replicate 5 (.producer 1))
    (fun state => state.producers 1 = .writeEvent) (by decide)
  exact ⟨state, reached, writes, (wake_event_single reached).2.1 1 writes⟩

end Executor

end AsyncFlow
