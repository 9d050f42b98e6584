import CoopKernel.Bank

/-!
# Names of tasks and queues

A task belongs to the application or polls one bus. A nest arbitrates a shared
resource, which may be a bus. Every nest has a private queue for the tasks that
wait for it, apart from the main queues.
-/

namespace CoopKernel

inductive TaskId where
  | user (i : Nat)
  | poll (bus : Nat)
deriving DecidableEq, Repr, Inhabited

inductive NestId where
  | shared (i : Nat)
  | bus (i : Nat)
deriving DecidableEq, Repr, Inhabited

inductive QueueId where
  | main (i : Nat)
  | waiting (n : NestId)
deriving DecidableEq, Repr, Inhabited

/-- What runs when a task reaches the head of its queue. -/
inductive Worker where
  | script (w : Nat)
  | poller (bus : Nat)
deriving DecidableEq, Repr

namespace TaskId

def number : TaskId → Nat
  | user i => 2 * i
  | poll i => 2 * i + 1

instance : Numbered TaskId where
  number := number
  number_inj i j h := by
    cases i <;> cases j <;> simp only [number] at h <;> first | omega | (congr 1; omega)

def name : TaskId → String
  | user i => s!"t{i}"
  | poll i => s!"poll{i}"

end TaskId

namespace NestId

def number : NestId → Nat
  | shared i => 2 * i
  | bus i => 2 * i + 1

instance : Numbered NestId where
  number := number
  number_inj i j h := by
    cases i <;> cases j <;> simp only [number] at h <;> first | omega | (congr 1; omega)

end NestId

namespace QueueId

def number : QueueId → Nat
  | main i => 2 * i
  | waiting n => 2 * n.number + 1

instance : Numbered QueueId where
  number := number
  number_inj i j h := by
    cases i <;> cases j <;> simp only [number] at h
    · congr 1; omega
    · omega
    · omega
    · congr 1; exact Numbered.number_inj _ _ (by change NestId.number _ = NestId.number _; omega)

end QueueId

end CoopKernel
