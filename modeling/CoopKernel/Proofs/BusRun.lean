import CoopKernel.Board.Bus
import CoopKernel.Proofs.ExecRules
import CoopKernel.Proofs.MasterRun
import CoopKernel.Proofs.QueueOperations

/-!
# A bus between runs of its poll task

Starting a transfer and running the poll task as equations: what becomes of the
master and of memory, and which task is queued last. Queueing itself puts
nothing on the wire.
-/

namespace CoopKernel

open Spi

def Event.wire? (bus : Nat) : Event → Option Wire
  | .wire b w => if b = bus then some w else none
  | _ => none

/-- The traffic of a bus, oldest first. -/
def Kernel.wires (bus : Nat) (k : Kernel) : List Wire :=
  (k.trace.filterMap (Event.wire? bus)).reverse

namespace Kernel

variable {k k' : Kernel} {events : List Event} {bus : Nat}

theorem wires_of_trace (trace : k'.trace = events ++ k.trace)
    (quiet : ∀ e ∈ events, e.wire? bus = none) : k'.wires bus = k.wires bus := by
  have silent : events.filterMap (Event.wire? bus) = [] := List.filterMap_eq_nil_iff.mpr quiet
  rw [wires, trace, List.filterMap_append, silent, List.nil_append, wires]

theorem wires_expose (c : Cell) : (k.expose c).wires bus = k.wires bus := by
  rw [expose]
  split
  · have trace : (k.note (.exposed c)).trace = [.exposed c] ++ k.trace := rfl
    exact wires_of_trace trace (by simp [Event.wire?])
  · rfl

theorem wires_traffic (bus : Nat) (ws : List Wire) :
    ({ k with trace := ws.map (Event.wire bus) ++ k.trace } : Kernel).wires bus =
      k.wires bus ++ ws.reverse := by
  have all : (ws.map (Event.wire bus)).filterMap (Event.wire? bus) = ws := by
    rw [List.filterMap_map]
    have one : Event.wire? bus ∘ Event.wire bus = some := by
      funext w
      simp [Event.wire?]
    rw [one, List.filterMap_some]
  simp [wires, List.filterMap_append, all]

/-- What an attempt to queue a task leaves, appended or not. -/
theorem relinked_add (k : Kernel) (q : QueueId) (t : TaskId) :
    (∃ k' appended events, add q t k = .ok appended k' ∧ k.Relinked k' events ∧
      ∀ e ∈ events, e = .enqueued q t) ∨ add q t k = .error (.fault .queuedWithoutWorker) k := by
  cases bound : k.isBound t with
  | false => exact Or.inr (add_unbound q bound)
  | true =>
    refine Or.inl ?_
    cases queued : k.disable.isQueued t with
    | true =>
      refine ⟨k.disable.restore k.cpu.enabled, false, [], ?_, Relinked.refl.section, by simp⟩
      simp [add, bound, offer, enclosed, queued]
    | false =>
      refine ⟨(k.disable.link q t).restore k.cpu.enabled, true, [.enqueued q t], ?_,
        (relinked_link rfl).section, by simp⟩
      simp [add, bound, offer, enclosed, queued]

end Kernel

namespace Board

variable {b b' : Board} {bus : Nat}

theorem onKernel_ok {α : Type} {x : Exec Kernel α} {a : α} {k : Kernel}
    (ran : x b.kernel = .ok a k) : onKernel x b = .ok a { b with kernel := k } := by
  simp only [onKernel, Exec.on, ran]

theorem onKernel_error {α : Type} {x : Exec Kernel α} {e : Stop} {k : Kernel}
    (ran : x b.kernel = .error e k) : onKernel x b = .error e { b with kernel := k } := by
  simp only [onKernel, Exec.on, ran]

/-- An operation on the kernel whose answer is dropped. -/
theorem onKernel_discard {α : Type} (x : Exec Kernel α) (b : Board) :
    (do let _ ← onKernel x : Exec Board Unit) b = match x b.kernel with
      | .ok _ k => .ok () { b with kernel := k }
      | .error e k => .error e { b with kernel := k } := by
  simp only [bind, EStateM.bind, onKernel, Exec.on]
  cases x b.kernel <;> rfl

theorem schedulePoll_eq (bus : Nat) (b : Board) :
    schedulePoll bus b = match Kernel.add (b.feedQueue bus) (.poll bus) b.kernel with
      | .ok _ k => .ok () { b with kernel := k }
      | .error e k => .error e { b with kernel := k } := by
  rw [schedulePoll, Exec.get_bind, onKernel_discard]
  cases Kernel.add (b.feedQueue bus) (.poll bus) b.kernel <;> rfl

theorem wakeHolder_eq (bus : Nat) (b : Board) :
    wakeHolder bus b =
      match Kernel.addOptional (b.feedQueue bus) (b.kernel.holder (.bus bus)) b.kernel with
      | .ok _ k => .ok () { b with kernel := k }
      | .error e k => .error e { b with kernel := k } := by
  rw [wakeHolder, Exec.get_bind, onKernel_discard]
  cases Kernel.addOptional (b.feedQueue bus) (b.kernel.holder (.bus bus)) b.kernel <;> rfl

def polled (bus : Nat) (b : Board) : Board :=
  let r := (b.masters.get bus).poll b.memory
  { b with
    masters := b.masters.set bus r.master
    memory := r.memory
    kernel := { b.kernel with trace := r.wires.map (Event.wire bus) ++ b.kernel.trace } }

theorem masters_polled (bus : Nat) (b : Board) :
    (b.polled bus).masters.get bus = ((b.masters.get bus).poll b.memory).master :=
  Bank.get_set_same ..

theorem runPoller_poll (phase : (b.masters.get bus).phase = .poll) :
    runPoller bus b =
      if ((b.masters.get bus).poll b.memory).ending = .transferDone then
        wakeHolder bus (b.polled bus)
      else schedulePoll bus (b.polled bus) := by
  rw [runPoller, Exec.get_bind, phase]
  simp only [poll, Exec.get_bind, Exec.set_bind, polled]
  cases ((b.masters.get bus).poll b.memory).ending <;> rfl

theorem runPoller_reload (phase : (b.masters.get bus).phase = .reload) :
    runPoller bus b = reload bus b := by
  rw [runPoller, Exec.get_bind, phase]

theorem reload_ended {m : Master} (ended : (b.masters.get bus).advance b.memory = (none, m)) :
    reload bus b =
      wakeHolder bus
        (modifyMaster bus Master.finish { b with masters := b.masters.set bus m }) := by
  simp only [reload, Exec.get_bind, Exec.set_bind, ended]
  rfl

theorem reload_loaded {m : Master} {first : UInt8} {n : Nat}
    (loaded : (b.masters.get bus).advance b.memory = (some (first, n), m)) :
    reload bus b =
      schedulePoll bus (prime bus first n { b with masters := b.masters.set bus m }) := by
  simp only [reload, Exec.get_bind, Exec.set_bind, loaded]
  rfl

/-- Everything that a run of the poll task can do: what it finds in the master, what it leaves and
whom it queues. -/
inductive PollerRun (bus : Nat) (b : Board) : Prop where
  | polling (phase : (b.masters.get bus).phase = .poll)
    (going : ((b.masters.get bus).poll b.memory).ending ≠ .transferDone)
    (ran : runPoller bus b = schedulePoll bus (b.polled bus))
  | polled (phase : (b.masters.get bus).phase = .poll)
    (ending : ((b.masters.get bus).poll b.memory).ending = .transferDone)
    (ran : runPoller bus b = wakeHolder bus (b.polled bus))
  | loaded {first : UInt8} {n : Nat} {m : Master} (phase : (b.masters.get bus).phase = .reload)
    (advanced : (b.masters.get bus).advance b.memory = (some (first, n), m))
    (ran : runPoller bus b =
      schedulePoll bus (prime bus first n { b with masters := b.masters.set bus m }))
  | ended {m : Master} (phase : (b.masters.get bus).phase = .reload)
    (advanced : (b.masters.get bus).advance b.memory = (none, m))
    (ran : runPoller bus b = wakeHolder bus
      (modifyMaster bus Master.finish { b with masters := b.masters.set bus m }))

theorem pollerRun (bus : Nat) (b : Board) : PollerRun bus b := by
  cases phase : (b.masters.get bus).phase with
  | poll =>
    have ran := runPoller_poll phase
    split at ran
    · rename_i ending
      exact .polled phase ending ran
    · rename_i going
      exact .polling phase going ran
  | reload =>
    have ran := runPoller_reload phase
    rcases advanced : (b.masters.get bus).advance b.memory with ⟨_ | ⟨first, n⟩, m⟩
    · exact .ended phase advanced (ran.trans (reload_ended advanced))
    · exact .loaded phase advanced (ran.trans (reload_loaded advanced))

theorem start_accepted {t : Transfer} {first : UInt8} {n : Nat} {m : Master}
    (accepted : t.fault? = none) (taken : (b.masters.get bus).accept b.memory t = (first, n, m)) :
    start bus t b =
      schedulePoll bus (prime bus first n { b with masters := b.masters.set bus m }) := by
  simp only [start, accepted, taken]
  rfl

theorem masters_prime (first : UInt8) (n : Nat) :
    (prime bus first n b).masters.get bus =
      { (b.masters.get bus).begin n with
        controller := (b.masters.get bus).controller.write first } := by
  simp [prime, send, modifyController, modifyMaster, note, Bank.get_modify, Master.begin]

theorem memory_prime (first : UInt8) (n : Nat) : (prime bus first n b).memory = b.memory := rfl

theorem kernel_prime (first : UInt8) (n : Nat) :
    (prime bus first n b).kernel =
      (b.kernel.putWorker (.poll bus) (.poller bus)).note (.wire bus (.tx first)) := rfl

theorem poll_bound_prime (first : UInt8) (n : Nat) :
    (prime bus first n b).kernel.isBound (.poll bus) = true := by
  change (b.kernel.putWorker (.poll bus) (.poller bus)).isBound (.poll bus) = true
  rw [Kernel.isBound_putWorker, decide_eq_true rfl, Bool.true_or]

theorem wires_prime (first : UInt8) (n : Nat) :
    (prime bus first n b).kernel.wires bus = b.kernel.wires bus ++ [.tx first] := by
  have bound : (b.kernel.putWorker (.poll bus) (.poller bus)).wires bus = b.kernel.wires bus :=
    Kernel.wires_expose (.worker (.poll bus))
  rw [kernel_prime, ← bound]
  exact Kernel.wires_traffic bus [.tx first]

end Board

end CoopKernel
