import Mathlib.Data.Nat.Bitwise
import Mathlib.Tactic.Cases

/-!
# Task types and the wake-request word

The enumerations of the task layer, and the 64-bit word in which a running task
keeps the wake-up requested for it: the run epoch the request was made in, the
schedule mode, and the target thread index plus one; zero means no request.
-/

namespace AsyncFlow

open BitVec

inductive TaskResult
  | done | pending | again | failed | cancelled
  deriving DecidableEq

inductive QueueFullPolicy
  | reject | yield
  deriving DecidableEq

inductive ScheduleMode
  | auto | fast | ordered
  deriving DecidableEq

inductive ShutdownPolicy
  | waitForTasks | stopImmediately
  deriving DecidableEq

inductive TaskState
  | created | queued | starting | running | pending | done
  deriving DecidableEq

def ScheduleMode.code : ScheduleMode → BitVec 64
  | .auto => 0
  | .fast => 1
  | .ordered => 2

namespace WakeRequest

def noRequestedThread : BitVec 64 := 0

def requestedThreadMask : BitVec 64 := 0xFFFF

def requestedModeShift : Nat := 16

def requestedModeMask : BitVec 64 := 0x3

def requestedEpochShift : Nat := 18

def requestedEpochMask : BitVec 64 := BitVec.allOnes 64 >>> requestedEpochShift

def packRequestedThread (epoch : BitVec 64) (threadIndex : Nat) (mode : ScheduleMode) : BitVec 64 :=
  ((epoch &&& requestedEpochMask) <<< requestedEpochShift) |||
    ((mode.code &&& requestedModeMask) <<< requestedModeShift) ||| (BitVec.ofNat 64 threadIndex + 1)

def requestedEpoch (request : BitVec 64) : BitVec 64 :=
  request >>> requestedEpochShift

def requestedTarget (request : BitVec 64) : Nat :=
  ((request &&& requestedThreadMask) - 1).toNat % 2 ^ 16

def requestedMode (request : BitVec 64) : ScheduleMode :=
  let code := (request >>> requestedModeShift) &&& requestedModeMask
  if code = 0 then .auto else if code = 1 then .fast else .ordered

variable {epoch : BitVec 64} {threadIndex : Nat} {mode : ScheduleMode}

theorem packRequestedThread_toNat (threadFits : threadIndex < 65535) :
    (packRequestedThread epoch threadIndex mode).toNat =
      epoch.toNat % 2 ^ 46 * 2 ^ 18 + (mode.code.toNat * 2 ^ 16 + (threadIndex + 1)) := by
  have epochMasked : (epoch &&& requestedEpochMask).toNat = epoch.toNat % 2 ^ 46 := by
    have maskValue : requestedEpochMask.toNat = 2 ^ 46 - 1 := by decide
    rw [toNat_and, maskValue, Nat.and_two_pow_sub_one_eq_mod]
  have modeMasked : mode.code &&& requestedModeMask = mode.code := by
    cases mode <;> rfl
  have modeFits : mode.code.toNat < 4 := by
    cases mode <;> decide
  have epochShifted : ((epoch &&& requestedEpochMask) <<< requestedEpochShift).toNat =
      (epoch.toNat % 2 ^ 46) <<< 18 := by
    rw [toNat_shiftLeft, epochMasked, requestedEpochShift, Nat.mod_eq_of_lt]
    rw [Nat.shiftLeft_eq]
    omega
  have modeShifted : (mode.code <<< requestedModeShift).toNat = mode.code.toNat <<< 16 := by
    rw [BitVec.toNat_shiftLeft, requestedModeShift, Nat.mod_eq_of_lt]
    rw [Nat.shiftLeft_eq]
    omega
  have threadValue : (BitVec.ofNat 64 threadIndex + 1).toNat = threadIndex + 1 := by
    rw [BitVec.toNat_add, BitVec.toNat_ofNat, show (1 : BitVec 64).toNat = 1 from rfl]
    omega
  have modeThread : mode.code.toNat <<< 16 ||| (threadIndex + 1) =
      mode.code.toNat * 2 ^ 16 + (threadIndex + 1) := by
    rw [← Nat.shiftLeft_add_eq_or_of_lt (by omega), Nat.shiftLeft_eq]
  rw [packRequestedThread, modeMasked, BitVec.or_assoc,
    BitVec.toNat_or, BitVec.toNat_or, epochShifted, modeShifted, threadValue,
    modeThread, ← Nat.shiftLeft_add_eq_or_of_lt (by omega), Nat.shiftLeft_eq]

theorem packRequestedThread_ne_none (threadFits : threadIndex < 65535) :
    packRequestedThread epoch threadIndex mode ≠ noRequestedThread := by
  intro empty
  have value : (packRequestedThread epoch threadIndex mode).toNat = _ :=
    packRequestedThread_toNat threadFits
  have zeroValue : noRequestedThread.toNat = 0 := rfl
  rw [empty, zeroValue] at value
  omega

theorem toNat_requestedEpoch_pack (threadFits : threadIndex < 65535) :
    (requestedEpoch (packRequestedThread epoch threadIndex mode)).toNat = epoch.toNat % 2 ^ 46 := by
  have modeFits : mode.code.toNat < 4 := by
    cases mode <;> decide
  rw [requestedEpoch, toNat_ushiftRight, requestedEpochShift,
    packRequestedThread_toNat threadFits, Nat.shiftRight_eq_div_pow]
  omega

theorem requestedEpoch_pack (epochFits : epoch.toNat < 2 ^ 46) (threadFits : threadIndex < 65535) :
    requestedEpoch (packRequestedThread epoch threadIndex mode) = epoch := by
  apply eq_of_toNat_eq
  rw [toNat_requestedEpoch_pack threadFits, Nat.mod_eq_of_lt epochFits]

theorem requestedTarget_pack (threadFits : threadIndex < 65535) :
    requestedTarget (packRequestedThread epoch threadIndex mode) = threadIndex := by
  have masked : (packRequestedThread epoch threadIndex mode &&&
      requestedThreadMask).toNat = threadIndex + 1 := by
    rw [toNat_and]
    have maskValue : requestedThreadMask.toNat = 2 ^ 16 - 1 := by decide
    rw [maskValue, Nat.and_two_pow_sub_one_eq_mod, packRequestedThread_toNat threadFits]
    omega
  rw [requestedTarget, toNat_sub, masked, show (1 : BitVec 64).toNat = 1 from rfl]
  omega

theorem requestedMode_pack (threadFits : threadIndex < 65535) :
    requestedMode (packRequestedThread epoch threadIndex mode) = mode := by
  have code : (packRequestedThread epoch threadIndex mode >>> requestedModeShift) &&&
      requestedModeMask = mode.code := by
    apply eq_of_toNat_eq
    have maskValue : requestedModeMask.toNat = 2 ^ 2 - 1 := by decide
    have modeFits : mode.code.toNat < 4 := by
      cases mode <;> decide
    rw [toNat_and, maskValue, Nat.and_two_pow_sub_one_eq_mod, toNat_ushiftRight,
      requestedModeShift, packRequestedThread_toNat threadFits, Nat.shiftRight_eq_div_pow]
    omega
  rw [requestedMode, code]
  cases mode <;> rfl

end WakeRequest

end AsyncFlow
