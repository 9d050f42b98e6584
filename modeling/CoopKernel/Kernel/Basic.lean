import CoopKernel.Cpu
import CoopKernel.Event

/-!
# Kernel state

Tasks carry the link that chains them in a queue, so a task sits in at most one
queue. A queue knows its first and last task. A nest knows who holds its
resource. The soft interrupt table has one pending bit and one handler per id.

Stores to shared cells go through the functions below, which record a store made
while interrupts are enabled.
-/

namespace CoopKernel

structure Task where
  worker : Option Worker := none
  next : Option TaskId := none
  queued : Bool := false
deriving DecidableEq, Repr

structure Queue where
  head : Option TaskId := none
  tail : Option TaskId := none
deriving DecidableEq, Repr

structure Nest where
  /-- The main queue that the holder is put in. -/
  feeds : QueueId
  current : Option TaskId := none
deriving DecidableEq, Repr

/-- The pending word has one bit for each of this many ids. -/
def SoftTable.maxSlots : Nat := 32

/-- The pending word has a bit for every id in the table. -/
structure SoftTable where
  slots : Nat := 0
  slots_le : slots ≤ SoftTable.maxSlots := by decide
  pending : BitVec 32 := 0
  handlers : Bank Nat (Option Nat) := ⟨none, #[]⟩

structure Kernel where
  cpu : Cpu := {}
  tasks : Bank TaskId Task := ⟨{}, #[]⟩
  queues : Bank QueueId Queue := ⟨{}, #[]⟩
  nests : Bank NestId Nest := ⟨⟨.main 0, none⟩, #[]⟩
  soft : SoftTable := {}
  /-- Newest first. -/
  trace : List Event := []

namespace Kernel

def note (e : Event) (k : Kernel) : Kernel := { k with trace := e :: k.trace }

/-- Called before a store to a shared cell. -/
def expose (c : Cell) (k : Kernel) : Kernel := if k.cpu.enabled then k.note (.exposed c) else k

def putNext (t : TaskId) (next : Option TaskId) (k : Kernel) : Kernel :=
  { k.expose (.next t) with tasks := k.tasks.modify t ({ · with next := next }) }

def putQueued (t : TaskId) (queued : Bool) (k : Kernel) : Kernel :=
  { k.expose (.queued t) with tasks := k.tasks.modify t ({ · with queued := queued }) }

def putWorker (t : TaskId) (w : Worker) (k : Kernel) : Kernel :=
  { k.expose (.worker t) with tasks := k.tasks.modify t ({ · with worker := some w }) }

def putHead (q : QueueId) (t : Option TaskId) (k : Kernel) : Kernel :=
  { k.expose (.head q) with queues := k.queues.modify q ({ · with head := t }) }

def putTail (q : QueueId) (t : Option TaskId) (k : Kernel) : Kernel :=
  { k.expose (.tail q) with queues := k.queues.modify q ({ · with tail := t }) }

def putCurrent (n : NestId) (t : Option TaskId) (k : Kernel) : Kernel :=
  { k.expose (.current n) with nests := k.nests.modify n ({ · with current := t }) }

def putHandler (id : Nat) (w : Option Nat) (k : Kernel) : Kernel :=
  { k.expose (.handler id) with soft := { k.soft with handlers := k.soft.handlers.set id w } }

def enable (k : Kernel) : Kernel := { k with cpu := k.cpu.enable }

def disable (k : Kernel) : Kernel := { k with cpu := k.cpu.disable }

def sleep (k : Kernel) : Kernel := { k with cpu := k.cpu.sleep }.note .slept

def restore (saved : Bool) (k : Kernel) : Kernel := { k with cpu := k.cpu.restore saved }

/-- Run with interrupts disabled, then restore the flag. -/
def enclosed {α : Type} (body : Kernel → α × Kernel) (k : Kernel) : α × Kernel :=
  let (a, k') := body k.disable
  (a, k'.restore k.cpu.enabled)

/-- The same for a body that a fault may stop; the flag is restored either way. -/
def critical {α : Type} (body : Exec Kernel α) : Exec Kernel α := fun k =>
  match body k.disable with
  | .ok a k' => .ok a (k'.restore k.cpu.enabled)
  | .error e k' => .error e (k'.restore k.cpu.enabled)

end Kernel

end CoopKernel
