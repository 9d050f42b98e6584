import CoopKernel.Reply

/-!
# Events of a run

Everything a run does that matters to an observer, in one vocabulary: stores to
shared cells that an interrupt could have seen half done, queue traffic, soft
interrupts, bus traffic, and the replies of nested actions.
-/

namespace CoopKernel

/-- A cell that interrupt handlers and the main program share. -/
inductive Cell where
  | next (t : TaskId)
  | queued (t : TaskId)
  | worker (t : TaskId)
  | head (q : QueueId)
  | tail (q : QueueId)
  | current (n : NestId)
  | handler (id : Nat)
deriving DecidableEq, Repr

/-- Traffic on a data register. Ready checks are grouped: some misses, then perhaps a hit. -/
inductive Wire where
  | tx (byte : UInt8)
  | checked (misses : Nat) (hit : Bool)
  | rx (byte : UInt8)
deriving DecidableEq, Repr

inductive Event where
  /-- The cell was stored to while interrupts were enabled. -/
  | exposed (cell : Cell)
  | enqueued (q : QueueId) (t : TaskId)
  | dequeued (q : QueueId) (t : TaskId)
  /-- The nest took the task on: as its holder or as one that waits. -/
  | submitted (n : NestId) (t : TaskId)
  | granted (n : NestId) (t : TaskId)
  | raised (id : Nat) (fresh : Bool)
  | served (id : Nat)
  | slept
  | wire (bus : Nat) (w : Wire)
  | loaded (bus : Nat) (regs : UInt8)
  | unloaded (bus : Nat) (regs : UInt8)
  | selected (line : Nat)
  | deselected (line : Nat)
  | taskRan (t : TaskId) (w : Worker) (enabled queued : Bool)
  | handlerRan (id script : Nat) (enabled : Bool)
  | replied (action : String) (reply : Reply)
deriving DecidableEq, Repr

end CoopKernel
