import CoopKernel.Kernel.Basic

/-!
# Work queues

First in, first out. A task that sits in any queue is refused, so several places
may submit one task without agreeing on who does. Every change happens in a
critical section.
-/

namespace CoopKernel.Kernel

/-- The tasks met from `t` on; `bound` cuts off a chain that does not end. -/
def walk (tasks : Bank TaskId Task) : Nat → Option TaskId → List TaskId
  | bound + 1, some t => t :: walk tasks bound (tasks.get t).next
  | _, _ => []

/-- The waiting tasks, oldest first. No chain of distinct tasks is longer than the task bank. -/
def chain (k : Kernel) (q : QueueId) : List TaskId :=
  walk k.tasks k.tasks.size (k.queues.get q).head

def length (k : Kernel) (q : QueueId) : Nat := (k.chain q).length

def isBound (k : Kernel) (t : TaskId) : Bool := (k.tasks.get t).worker.isSome

def isQueued (k : Kernel) (t : TaskId) : Bool := (k.tasks.get t).queued

/-- Append a task that is in no queue. -/
def link (q : QueueId) (t : TaskId) (k : Kernel) : Kernel :=
  let unlinked := (k.putNext t none).putQueued t true
  let joined := match (unlinked.queues.get q).tail with
    | some last => unlinked.putNext last (some t)
    | none => unlinked.putHead q (some t)
  (joined.putTail q (some t)).note (.enqueued q t)

/-- Take the oldest task out. -/
def unlink (q : QueueId) (k : Kernel) : Option TaskId × Kernel :=
  match (k.queues.get q).head with
  | none => (none, k)
  | some t =>
    let next := (k.tasks.get t).next
    let shorter := k.putHead q next
    let ended := if next.isNone then shorter.putTail q none else shorter
    (some t, ((ended.putNext t none).putQueued t false).note (.dequeued q t))

/-- Append a task unless it sits in a queue already, and say whether it was appended. -/
def offer (q : QueueId) (t : TaskId) : Kernel → Bool × Kernel :=
  enclosed fun k => if k.isQueued t then (false, k) else (true, k.link q t)

/-- A task without a worker must not be queued. -/
def add (q : QueueId) (t : TaskId) : Exec Kernel Bool := fun k =>
  if k.isBound t then
    let (appended, k') := k.offer q t
    .ok appended k'
  else .error (.fault .queuedWithoutWorker) k

/-- Adding nothing is refused without touching the queue. -/
def addOptional (q : QueueId) : Option TaskId → Exec Kernel Bool
  | none => pure false
  | some t => add q t

def pop (q : QueueId) : Kernel → Option TaskId × Kernel := enclosed (unlink q)

def count (q : QueueId) : Kernel → Nat × Kernel := enclosed fun k => (k.length q, k)

def isEmpty (q : QueueId) : Kernel → Bool × Kernel :=
  enclosed fun k => ((k.queues.get q).head.isNone, k)

end CoopKernel.Kernel
