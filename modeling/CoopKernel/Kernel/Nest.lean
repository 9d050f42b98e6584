import CoopKernel.Kernel.Queue

/-!
# Nests

A nest hands a resource to one task at a time. The holder is put in the main
queue that the nest feeds and keeps the resource until it lets go; all others
wait in the private queue.
-/

namespace CoopKernel.Kernel

def holder (k : Kernel) (n : NestId) : Option TaskId := (k.nests.get n).current

def isIdle (k : Kernel) (n : NestId) : Bool := (k.holder n).isNone

/-- How many tasks wait behind the holder. -/
def waiting (k : Kernel) (n : NestId) : Nat := k.length (.waiting n)

def feeds (k : Kernel) (n : NestId) : QueueId := (k.nests.get n).feeds

def grant (n : NestId) (t : TaskId) (k : Kernel) : Kernel :=
  (k.putCurrent n (some t)).note (.granted n t)

/-- Where a task that asks for the resource goes: a free resource is granted at once. -/
def place (n : NestId) (t : TaskId) : Exec Kernel Bool := fun k =>
  match k.holder n with
  | some _ => add (.waiting n) t k
  | none => add (k.feeds n) t (k.grant n t)

/-- Ask for the resource, and say whether the task was queued. -/
def submit (n : NestId) (t : TaskId) : Exec Kernel Bool := critical fun k =>
  match place n t k with
  | .ok true k' => .ok true (k'.note (.submitted n t))
  | r => r

/-- Hand the resource to the task that waits longest, or leave it free. -/
def handOver (n : NestId) : Exec Kernel Unit := critical fun k =>
  match k.pop (.waiting n) with
  | (none, k') => .ok () (k'.putCurrent n none)
  | (some t, k') =>
    match add (k'.feeds n) t k' with
    | .ok _ k'' => .ok () (k''.grant n t)
    | .error e k'' => .error e k''

end CoopKernel.Kernel
