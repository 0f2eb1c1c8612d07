import Mathlib.Tactic.Common

namespace SoftEther.Native

/-!
# The slot of a native handle

`NativeHandleSlot` is the one place where a connection's native handle changes owners.

* `Handle` — a Kotlin `Long`, zero when there is none;
* `NativeHandleClaim` — what a claim for destruction found;
* `NativeHandleSlot` — the fields its lock guards, and the methods on them.
-/

/-- A native handle; `0` is none. -/
abbrev Handle := Int64

inductive NativeHandleClaim
  | nothingOutstanding
  | claimed (handle : Handle)
  | lost
  deriving DecidableEq, Repr

structure NativeHandleSlot where
  handle : Handle := 0
  destroyInFlight : Bool := false
  lost : Bool := false
  deriving DecidableEq, Repr

namespace NativeHandleSlot

/-- Install a fresh handle, with the answer whether it was published. -/
def publish (handle : Handle) (slot : NativeHandleSlot) : NativeHandleSlot × Bool :=
  if slot.lost || slot.destroyInFlight then (slot, false)
  else ({ slot with handle := handle }, true)

/-- A claim goes ahead when no destroy is in flight, or its wait for one is over. -/
def claimReady (expired : Bool) (slot : NativeHandleSlot) : Bool :=
  !slot.destroyInFlight || expired

/-- `claimHandle`, after the bounded wait. -/
def claimHandle (slot : NativeHandleSlot) : NativeHandleSlot × NativeHandleClaim :=
  if slot.handle ≠ 0 then
    ({ slot with handle := 0, destroyInFlight := true }, .claimed slot.handle)
  else if slot.destroyInFlight || slot.lost then (slot, .lost)
  else (slot, .nothingOutstanding)

/-- The claimant's destroy freed the structure. -/
def settleDestroyed (slot : NativeHandleSlot) : NativeHandleSlot :=
  { slot with destroyInFlight := false }

/-- The claimant's destroy is unproven. -/
def settleLost (slot : NativeHandleSlot) : NativeHandleSlot :=
  { slot with destroyInFlight := false, lost := true }

end NativeHandleSlot

end SoftEther.Native
