import CoopKernel.Kernel.Nest
import CoopKernel.Kernel.SoftInterrupt
import CoopKernel.Proofs.ExecRules
import Mathlib.Logic.Relation

/-!
# Everything that can happen to a kernel

A run changes the kernel only by steps of a few kinds, so that what every step
preserves holds of every run. A run that is stopped may end one change beyond its
last step, where a dispatch found no handler or no worker.
-/

namespace CoopKernel

namespace Event

def isSoft : Event → Bool
  | raised _ _ | served _ | handlerRan _ _ _ => true
  | _ => false

def isQueueing : Event → Bool
  | exposed _ | enqueued _ _ | dequeued _ _ | submitted _ _ | granted _ _ => true
  | _ => false

end Event

namespace Kernel

/-- The kernel when the handler of its lowest pending id starts. -/
def dispatched (id script : Nat) (k : Kernel) : Kernel :=
  k.takeLowest.2.enable.note (.handlerRan id script true)

/-- The kernel when the worker of a task starts that the main loop took out of a queue. -/
def turned (q : QueueId) (t : TaskId) (w : Worker) (k : Kernel) : Kernel :=
  (k.pop q).2.enable.note (.taskRan t w true ((k.pop q).2.isQueued t))

/-- Only the main loop takes tasks out of a `reserved` main queue. -/
inductive Step (reserved : Nat → Prop) (k : Kernel) : Kernel → Prop where
  | add (q : QueueId) (t : TaskId) : Step reserved k (Exec.final (Kernel.add q t) k)
  | pop (q : QueueId) (common : ∀ i, reserved i → q ≠ .main i) : Step reserved k (k.pop q).2
  | turn {q : QueueId} {t : TaskId} {w : Worker} (quiet : k.soft.lowest? = none)
    (first : (k.pop q).1 = some t) (worker : ((k.pop q).2.tasks.get t).worker = some w) :
    Step reserved k (k.turned q t w)
  | count (q : QueueId) : Step reserved k (k.count q).2
  | isEmpty (q : QueueId) : Step reserved k (k.isEmpty q).2
  | grant (n : NestId) (t : TaskId) : Step reserved k (k.grant n t)
  | free (n : NestId) : Step reserved k (k.putCurrent n none)
  | submitted (n : NestId) (t : TaskId) : Step reserved k (k.note (.submitted n t))
  | bindWorker (t : TaskId) (w : Worker) : Step reserved k (k.putWorker t w)
  | bindHandler (id : Nat) (script : Option Nat) :
    Step reserved k (Exec.final (Kernel.bindHandler id script) k)
  | raise (id : Nat) : Step reserved k (Exec.final (Kernel.raise id) k)
  | dispatch {id script : Nat} (lowest : k.soft.lowest? = some id)
    (bound : k.soft.handlers.get id = some script) : Step reserved k (k.dispatched id script)
  | cpu (c : Cpu) : Step reserved k { k with cpu := c }
  | remark (e : Event) (plain : e.isSoft = false ∧ e.isQueueing = false) :
    Step reserved k (k.note e)

abbrev Steps (reserved : Nat → Prop) : Kernel → Kernel → Prop :=
  Relation.ReflTransGen (Step reserved)

/-- The lowest pending id was taken for service, but nobody handles it. -/
def Unhandled (k k' : Kernel) : Prop :=
  ∃ id, k.soft.lowest? = some id ∧ k.soft.handlers.get id = none ∧ k' = k.takeLowest.2.enable

/-- The main loop took out a task that has no worker. -/
def Workerless (k k' : Kernel) : Prop :=
  ∃ q t, (k.pop q).1 = some t ∧ ((k.pop q).2.tasks.get t).worker = none ∧ k' = (k.pop q).2.enable

/-- A run that was stopped, perhaps by a dispatch that found no handler or no worker. -/
def Halts (reserved : Nat → Prop) (k k' : Kernel) : Prop :=
  ∃ last, k.Steps reserved last ∧ (k' = last ∨ last.Unhandled k' ∨ last.Workerless k')

variable {reserved : Nat → Prop} {k k' : Kernel}

theorem Steps.halts (steps : k.Steps reserved k') : k.Halts reserved k' :=
  ⟨k', steps, Or.inl rfl⟩

/-- A record of events that leave queues and pending ids alone. -/
theorem steps_remarks {events : List Event}
    (plain : ∀ e ∈ events, e.isSoft = false ∧ e.isQueueing = false) (k : Kernel) :
    k.Steps reserved { k with trace := events ++ k.trace } := by
  induction events with
  | nil => exact .refl
  | cons e events ih =>
    have earlier := ih fun e mem => plain e (List.mem_cons_of_mem _ mem)
    exact earlier.tail (.remark e (plain e List.mem_cons_self))

theorem pop_none {q : QueueId} (nothing : (k.pop q).1 = none) :
    (k.pop q).2 = { k with cpu := (k.pop q).2.cpu } := by
  cases first : (k.disable.queues.get q).head with
  | none =>
    have same : k.pop q = (none, k.disable.restore k.cpu.enabled) := by
      simp only [pop, enclosed, unlink, first]
    rw [same]
    rfl
  | some t =>
    have taken : (k.pop q).1 = some t := by simp only [pop, enclosed, unlink, first]
    rw [nothing] at taken
    cases taken

theorem steps_place (n : NestId) (t : TaskId) (k : Kernel) :
    k.Steps reserved (Exec.final (Kernel.place n t) k) := by
  cases held : k.holder n with
  | some u =>
    have same : Kernel.place n t k = Kernel.add (.waiting n) t k := by rw [Kernel.place, held]
    rw [Exec.final, same]
    exact .single (.add (.waiting n) t)
  | none =>
    have same : Kernel.place n t k = Kernel.add (k.feeds n) t (k.grant n t) := by
      rw [Kernel.place, held]
    rw [Exec.final, same]
    exact .tail (.single (.grant n t)) (.add (k.feeds n) t)

/-- A section takes over what its body does. -/
theorem steps_critical {α : Type} {body : Exec Kernel α}
    (h : ∀ k : Kernel, k.Steps reserved (Exec.final body k)) (k : Kernel) :
    k.Steps reserved (Exec.final (Kernel.critical body) k) := by
  have inner : k.Steps reserved (Exec.final body k.disable) :=
    .head (.cpu k.cpu.disable) (h k.disable)
  have section_eq : Exec.final (Kernel.critical body) k =
      (Exec.final body k.disable).restore k.cpu.enabled := by
    simp only [Exec.final, Kernel.critical]
    cases body k.disable <;> rfl
  rw [section_eq]
  exact inner.tail (.cpu _)

theorem steps_submit (n : NestId) (t : TaskId) (k : Kernel) :
    k.Steps reserved (Exec.final (Kernel.submit n t) k) := by
  apply steps_critical
  intro k
  have placed : k.Steps reserved _ := steps_place n t k
  dsimp only [Exec.final]
  cases ran : Kernel.place n t k with
  | ok answer k' =>
    rw [Exec.final_ok ran] at placed
    cases answer with
    | true => exact placed.tail (.submitted n t)
    | false => exact placed
  | error e k' =>
    rw [Exec.final_error ran] at placed
    exact placed

theorem steps_handOver (n : NestId) (k : Kernel) :
    k.Steps reserved (Exec.final (Kernel.handOver n) k) := by
  apply steps_critical
  intro k
  have popped : k.Steps reserved (k.pop (.waiting n)).2 :=
    .single (.pop (.waiting n) fun _ _ same => by cases same)
  dsimp only [Exec.final]
  generalize k.pop (.waiting n) = result at popped ⊢
  obtain ⟨_ | t, k'⟩ := result
  · exact popped.tail (.free n)
  · have added : k.Steps reserved (Exec.final (Kernel.add (k'.feeds n) t) k') :=
      popped.tail (.add (k'.feeds n) t)
    cases ran : Kernel.add (k'.feeds n) t k' with
    | ok answer k'' =>
      rw [Exec.final_ok ran] at added
      simp only [ran]
      exact added.tail (.grant n t)
    | error e k'' =>
      rw [Exec.final_error ran] at added
      simp only [ran]
      exact added

end Kernel

end CoopKernel
