import Mathlib.Logic.Function.Basic

/-!
# Interests in an epoll instance

The calls of `epoll_ctl` that the executor makes.  The table of the epoll instance
is part of the state; which calls fail, and how, is decided by the environment and
counted.
-/

namespace AsyncFlow

open Function

inductive Errno
  | badf
  | inval
  | nosys
  | already
  | nomem
  | noent
  | exist
  | canceled
  | timedOut
  | io
  | other (code : Nat)
  deriving DecidableEq

structure IoEvents where
  readable : Bool
  writable : Bool
  error : Bool
  hangup : Bool
  deriving DecidableEq

namespace IoEvents

def none : IoEvents := ⟨false, false, false, false⟩

def ioError : IoEvents := ⟨false, false, true, false⟩

end IoEvents

/-- The `EPOLL*` flags of an event that the kernel reports. -/
structure EpollEvents where
  epollIn : Bool
  epollOut : Bool
  epollErr : Bool
  epollHup : Bool
  epollRdhup : Bool
  deriving DecidableEq

def ioEventsFromNative (events : EpollEvents) : IoEvents where
  readable := events.epollIn
  writable := events.epollOut
  error := events.epollErr
  hangup := events.epollHup || events.epollRdhup

/-- The values of `epoll_event::data`. -/
inductive EpollToken
  | wake
  | channel (channel : Nat)
  | wait (fd : Int)
  deriving DecidableEq

/-- `EPOLLERR` and `EPOLLHUP` are understood.  A one-shot interest is not armed once
it was reported. -/
structure EpollInterest where
  token : EpollToken
  epollIn : Bool
  epollOut : Bool
  epollOneshot : Bool
  armed : Bool
  deriving DecidableEq

inductive EpollCtl
  | add (interest : EpollInterest)
  | mod (interest : EpollInterest)
  | del
  deriving DecidableEq

structure Epoll where
  interests : Int → Option EpollInterest
  /-- What the next calls fail with; later calls do not fail. -/
  failsNext : List (Option Errno)
  failures : Nat
  errno : Option Errno

namespace Epoll

def new : Epoll where
  interests := fun _ => none
  failsNext := []
  failures := 0
  errno := none

def answer : EpollCtl → Option EpollInterest → Except Errno (Option EpollInterest)
  | .add interest, none => .ok (some interest)
  | .add _, some _ => .error .exist
  | .mod interest, some _ => .ok (some interest)
  | .mod _, none => .error .noent
  | .del, some _ => .ok none
  | .del, none => .error .noent

def ctl (epoll : Epoll) (fd : Int) (call : EpollCtl) : Epoll × Bool :=
  match epoll.failsNext with
  | some errno :: failsNext =>
    ({ epoll with
        failsNext := failsNext
        failures := epoll.failures + 1
        errno := some errno }, false)
  | failsNext =>
    match answer call (epoll.interests fd) with
    | .ok interest =>
      ({ epoll with
          failsNext := failsNext.tail
          interests := update epoll.interests fd interest }, true)
    | .error errno => ({ epoll with failsNext := failsNext.tail, errno := some errno }, false)

def del (epoll : Epoll) (fd : Int) : Epoll :=
  (epoll.ctl fd .del).1

/-- The calls of `update_epoll_interest` when there is an interest. -/
def modOrAdd (epoll : Epoll) (fd : Int) (interest : EpollInterest) : Epoll × Bool :=
  let (epoll, modified) := epoll.ctl fd (.mod interest)
  if modified then (epoll, true)
  else if epoll.errno ≠ some .noent then (epoll, false)
  else
    let (epoll, added) := epoll.ctl fd (.add interest)
    if added then (epoll, true)
    else if epoll.errno = some .exist then epoll.ctl fd (.mod interest)
    else (epoll, false)

/-- The calls of `update_epoll_net_channel_interest` for a channel that is not
active yet. -/
def addOrMod (epoll : Epoll) (fd : Int) (interest : EpollInterest) : Epoll × Bool :=
  let (epoll, added) := epoll.ctl fd (.add interest)
  if added then (epoll, true)
  else if epoll.errno ≠ some .exist then (epoll, false)
  else epoll.ctl fd (.mod interest)

/-- The calls of `update_epoll_net_channel_interest` for a channel that wants
events. -/
def setChannel (epoll : Epoll) (active : Bool) (fd : Int) (interest : EpollInterest) :
    Epoll × Bool :=
  if active then epoll.ctl fd (.mod interest) else epoll.addOrMod fd interest

def report (epoll : Epoll) (reported : Int → Bool) : Epoll :=
  { epoll with
    interests := fun fd =>
      if reported fd then
        (epoll.interests fd).map fun interest =>
          { interest with armed := interest.armed && !interest.epollOneshot }
      else epoll.interests fd }

def close (epoll : Epoll) (fd : Int) : Epoll :=
  { epoll with interests := update epoll.interests fd none }

/-! ### What calls do -/

variable {before middle after : Epoll} {fd : Int} {call : EpollCtl} {succeeded : Bool}
  {interest : Option EpollInterest}

inductive Called (before : Epoll) (fd : Int) (call : EpollCtl) (after : Epoll) : Bool → Prop
  | failed (interests : after.interests = before.interests)
      (failures : after.failures = before.failures + 1) : Called before fd call after false
  | done {interest : Option EpollInterest}
      (answers : answer call (before.interests fd) = .ok interest)
      (interests : after.interests = update before.interests fd interest)
      (failures : after.failures = before.failures) : Called before fd call after true
  | refused {errno : Errno} (answers : answer call (before.interests fd) = .error errno)
      (interests : after.interests = before.interests)
      (failures : after.failures = before.failures) (reported : after.errno = some errno) :
      Called before fd call after false

theorem called_of_ctl (calls : before.ctl fd call = (after, succeeded)) :
    Called before fd call after succeeded := by
  unfold ctl at calls
  split at calls
  · cases calls
    exact .failed rfl rfl
  · split at calls
    next answers =>
      cases calls
      exact .done answers rfl rfl
    next answers =>
      cases calls
      exact .refused answers rfl rfl rfl

/-- The epoll instance after calls that are to give a descriptor an interest. -/
structure Changed (before after : Epoll) (fd : Int) (interest : Option EpollInterest) : Prop where
  others : ∀ other, other ≠ fd → after.interests other = before.interests other
  failures_le : before.failures ≤ after.failures
  /-- The interest is set unless the environment made a call fail. -/
  isSet : after.failures = before.failures → after.interests fd = interest

structure Touched (before after : Epoll) (fd : Int) : Prop where
  others : ∀ other, other ≠ fd → after.interests other = before.interests other
  failures_le : before.failures ≤ after.failures

theorem Touched.trans (one : Touched before middle fd) (other : Touched middle after fd) :
    Touched before after fd where
  others := fun key different => (other.others key different).trans (one.others key different)
  failures_le := Nat.le_trans one.failures_le other.failures_le

theorem Called.touched (called : Called before fd call after succeeded) :
    Touched before after fd := by
  cases called with
  | failed interests failures | refused answers interests failures =>
    exact ⟨fun _ _ => by rw [interests], by omega⟩
  | done answers interests failures =>
    exact ⟨fun _ different => by rw [interests, update_of_ne different], by omega⟩

theorem Changed.touched (changed : Changed before after fd interest) : Touched before after fd :=
  ⟨changed.others, changed.failures_le⟩

theorem Touched.changed (one : Touched before middle fd)
    (other : Changed middle after fd interest) : Changed before after fd interest where
  others := (one.trans other.touched).others
  failures_le := (one.trans other.touched).failures_le
  isSet := fun same => other.isSet (by have := one.failures_le; have := other.failures_le; omega)

theorem changed_del (epoll : Epoll) (fd : Int) : Changed epoll (epoll.del fd) fd none := by
  unfold del
  cases calls : epoll.ctl fd .del with
  | mk after succeeded =>
    have called := called_of_ctl calls
    refine ⟨called.touched.others, called.touched.failures_le, fun same => ?_⟩
    dsimp only at same ⊢
    cases called with
    | failed interests failures => omega
    | done answers interests failures =>
      rw [interests, update_self]
      cases present : epoll.interests fd <;> simp_all [answer]
    | refused answers interests failures =>
      rw [interests]
      cases present : epoll.interests fd <;> simp_all [answer]

theorem changed_close (epoll : Epoll) (fd : Int) : Changed epoll (epoll.close fd) fd none :=
  ⟨fun _ different => update_of_ne different _ _, Nat.le_refl _, fun _ => update_self ..⟩

variable {wanted : EpollInterest}

theorem Called.changed (called : Called before fd call after succeeded)
    (wants : ∀ present interest, answer call present = .ok interest → interest = some wanted)
    (carriedOut : after.failures = before.failures → succeeded = true) :
    Changed before after fd (some wanted) :=
  { called.touched with
    isSet := by
      intro same
      cases called with
      | failed interests failures => omega
      | done answers interests failures =>
        rw [interests, update_self]
        exact wants _ _ answers
      | refused => simp [same] at carriedOut }

theorem answer_mod (present interest : Option EpollInterest)
    (answers : answer (.mod wanted) present = .ok interest) : interest = some wanted := by
  cases present <;> simp_all [answer]

theorem answer_add (present interest : Option EpollInterest)
    (answers : answer (.add wanted) present = .ok interest) : interest = some wanted := by
  cases present <;> simp_all [answer]

theorem Changed.of_failed (touched : Touched before after fd)
    (failed : before.failures < after.failures) : Changed before after fd interest :=
  { touched with
    isSet := fun same => by omega }

theorem Called.mod_refused (called : Called before fd (.mod wanted) after false) :
    before.failures < after.failures ∨ after.failures = before.failures ∧
      before.interests fd = none ∧ after.interests fd = none ∧ after.errno = some .noent := by
  cases called with
  | failed interests failures => exact .inl (by omega)
  | refused answers interests failures reported =>
    cases present : before.interests fd with
    | none =>
      simp only [answer, present, Except.error.injEq] at answers
      exact .inr ⟨failures, rfl, by rw [interests, present], answers ▸ reported⟩
    | some old => simp [answer, present] at answers

theorem Called.add_refused (called : Called before fd (.add wanted) after false) :
    before.failures < after.failures ∨ after.failures = before.failures ∧
      before.interests fd ≠ none ∧ after.interests fd ≠ none ∧ after.errno = some .exist := by
  cases called with
  | failed interests failures => exact .inl (by omega)
  | refused answers interests failures reported =>
    cases present : before.interests fd with
    | none => simp [answer, present] at answers
    | some old =>
      simp only [answer, present, Except.error.injEq] at answers
      exact .inr ⟨failures, by simp, by simp [interests, present], answers ▸ reported⟩

section

variable (epoll : Epoll) (fd : Int) (wanted : EpollInterest)

theorem changed_addOrMod : Changed epoll (epoll.addOrMod fd wanted).1 fd (some wanted) := by
  unfold addOrMod
  cases first : epoll.ctl fd (.add wanted) with
  | mk middle added =>
    have calledAdd := called_of_ctl first
    cases added with
    | true => exact calledAdd.changed answer_add fun _ => rfl
    | false =>
      dsimp only
      rw [if_neg Bool.false_ne_true]
      split
      next reported =>
        refine calledAdd.changed answer_add fun same => ?_
        rcases calledAdd.add_refused with failed | ⟨-, -, -, exist⟩
        · omega
        · exact absurd exist reported
      · cases second : middle.ctl fd (.mod wanted) with
        | mk last modified =>
          have calledMod := called_of_ctl second
          have touched := calledAdd.touched.trans calledMod.touched
          cases modified with
          | true => exact calledAdd.touched.changed (calledMod.changed answer_mod fun _ => rfl)
          | false =>
            have failed : epoll.failures < last.failures := by
              have := calledMod.touched.failures_le
              rcases calledAdd.add_refused with failed | ⟨same, -, present, -⟩
              · omega
              · rcases calledMod.mod_refused with failed | ⟨-, absent, -⟩
                · omega
                · exact absurd absent present
            exact .of_failed touched failed

theorem changed_modOrAdd : Changed epoll (epoll.modOrAdd fd wanted).1 fd (some wanted) := by
  unfold modOrAdd
  cases first : epoll.ctl fd (.mod wanted) with
  | mk middle modified =>
    have calledMod := called_of_ctl first
    cases modified with
    | true => exact calledMod.changed answer_mod fun _ => rfl
    | false =>
      dsimp only
      rw [if_neg Bool.false_ne_true]
      split
      next reported =>
        refine calledMod.changed answer_mod fun same => ?_
        rcases calledMod.mod_refused with failed | ⟨-, -, -, noent⟩
        · omega
        · exact absurd noent reported
      · -- The rest of the call is `add_or_mod`.
        have changed := calledMod.touched.changed (changed_addOrMod middle fd wanted)
        simpa only [addOrMod, ne_eq, ite_not] using changed

theorem modOrAdd_succeeds (carriedOut : epoll.failsNext = [])
    : (epoll.modOrAdd fd wanted).2 = true := by
  cases present : epoll.interests fd <;> simp [modOrAdd, ctl, answer, carriedOut, present]

end

end Epoll

end AsyncFlow
