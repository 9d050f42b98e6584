import CoopKernel.Proofs.BoardOperations
import CoopKernel.Proofs.BusClients
import CoopKernel.Proofs.QueueHistory

/-!
# Refused transfers

The arguments of a transfer are looked at before anything is set up, so a refused
transfer leaves the board as it was, also in the middle of another transfer. Any
other transfer sends one byte and leaves the rest to the poll task, which is
queued unless it sits in a queue already.
-/

namespace CoopKernel

open Spi

/-- A transfer that breaks the contract of its operation. -/
def Spi.Transfer.Malformed : Transfer → Prop
  | .write _ | .read _ => False
  | .exchange data into => data.length ≠ into.length
  | .writeList data => data = []
  | .readList into => into = []
  | .exchangeList data into =>
    data = [] ∨ into = [] ∨ data.length ≠ into.length ∨
      ∃ pair ∈ data.zip into, pair.1.length ≠ pair.2.length

theorem Spi.Transfer.fault_eq_none {t : Transfer} : t.fault? = none ↔ ¬ t.Malformed := by
  cases t with
  | write data => simp [fault?, Malformed]
  | read into => simp [fault?, Malformed]
  | exchange data into => simp [fault?, Malformed]
  | writeList data => simp [fault?, Malformed]
  | readList into => simp [fault?, Malformed]
  | exchangeList data into =>
    by_cases empty : data = [] ∨ into = []
    · rcases empty with rfl | rfl <;> simp [fault?, Malformed]
    · obtain ⟨some_data, some_into⟩ := not_or.mp empty
      by_cases lengths : data.length = into.length
      · simp [fault?, Malformed, some_data, some_into, lengths]
      · simp [fault?, Malformed, some_data, some_into, lengths]

theorem Spi.Master.controller_accept (memory : Memory) (m : Master) (t : Transfer) :
    (m.accept memory t).2.2.controller = m.controller := by
  cases t <;> rfl

namespace Kernel

variable {k k' : Kernel} {q : QueueId} {t : TaskId}

/-- A task that was added has its flag set, whatever the queues look like. -/
theorem isQueued_of_add {appended : Bool} (added : Kernel.add q t k = .ok appended k') :
    k'.isQueued t = true := by
  rw [Kernel.add] at added
  split at added
  · cases added
    change ((if k.disable.isQueued t then (false, k.disable)
      else (true, k.disable.link q t)).2).isQueued t = true
    split
    · assumption
    · rw [isQueued_link rfl, if_pos rfl]
  · cases added

/-- A bound task is appended unless it sits in a queue, and every other queue stays as it is. -/
theorem Orderly.add (orderly : k.Orderly) (q : QueueId) (bound : k.isBound t = true) :
    ∃ k', Kernel.add q t k = .ok (!k.isQueued t) k' ∧ k'.Orderly ∧
      ((∃ r, t ∈ k.chain r) → k'.chain = k.chain) ∧
      ((∀ r, t ∉ k.chain r) → k'.chain = Function.update k.chain q (k.chain q ++ [t])) := by
  obtain ⟨k', lists, added, holds, -, -, result⟩ := Holds.add orderly q bound
  obtain ⟨still, chains⟩ := holds.orderly
  refine ⟨k', added, still, ?_, ?_⟩
  · rintro ⟨r, mem⟩
    rw [chains, result, if_pos (Holds.queued orderly mem)]
  · intro idle
    have unqueued : ¬ k.isQueued t = true := by
      intro queued
      obtain ⟨r, mem⟩ := (Holds.queued_iff orderly t).mp queued
      exact idle r mem
    rw [chains, result, if_neg unqueued]

end Kernel

namespace Board

variable {b b' : Board} {bus : Nat}

structure Launched (bus : Nat) (b b' : Board) : Prop where
  sent : ∃ first, b'.kernel.wires bus = b.kernel.wires bus ++ [.tx first] ∧
    (b'.masters.get bus).controller = (b.masters.get bus).controller.write first
  busy : (b'.masters.get bus).status = .inProgress
  memory : b'.memory = b.memory
  pending : b'.kernel.isQueued (.poll bus) = true

/-- The poll task is queued last, or stays where it is. -/
structure PollQueued (bus : Nat) (b b' : Board) : Prop where
  orderly : b'.kernel.Orderly
  stays : (∃ q, .poll bus ∈ b.kernel.chain q) → b'.kernel.chain = b.kernel.chain
  queued : (∀ q, .poll bus ∉ b.kernel.chain q) →
    b'.kernel.chain = Function.update b.kernel.chain (b.feedQueue bus)
      (b.kernel.chain (b.feedQueue bus) ++ [.poll bus])

theorem PollQueued.place (h : PollQueued bus b b') :
    .poll bus ∈ b'.kernel.chain (b.feedQueue bus) ∨
      ∃ q, q ≠ b.feedQueue bus ∧ .poll bus ∈ b.kernel.chain q := by
  by_cases somewhere : ∃ q, .poll bus ∈ b.kernel.chain q
  · obtain ⟨q, mem⟩ := somewhere
    by_cases here : q = b.feedQueue bus
    · subst here
      exact .inl (h.stays ⟨_, mem⟩ ▸ mem)
    · exact .inr ⟨q, here, mem⟩
  · rw [h.queued (not_exists.mp somewhere), Function.update_self]
    exact .inl (List.mem_append_right _ List.mem_cons_self)

theorem pending_schedulePoll (ran : schedulePoll bus b = .ok () b') :
    b'.kernel.isQueued (.poll bus) = true := by
  rw [schedulePoll_eq] at ran
  cases added : Kernel.add (b.feedQueue bus) (.poll bus) b.kernel with
  | ok appended k =>
    rw [added] at ran
    cases ran
    exact Kernel.isQueued_of_add added
  | error e k =>
    rw [added] at ran
    cases ran

/-- A transfer that is not refused is set up, sends its first byte and queues the poll task. -/
theorem launched_of_start (bus : Nat) (b : Board) {t : Transfer} (accepted : t.fault? = none) :
    ∃ b', start bus t b = .ok () b' ∧ Launched bus b b' ∧
      (b.kernel.Orderly → PollQueued bus b b') := by
  rcases taken : (b.masters.get bus).accept b.memory t with ⟨first, n, m⟩
  have controller : m.controller = (b.masters.get bus).controller := by
    have kept := (b.masters.get bus).controller_accept b.memory t
    rwa [taken] at kept
  let primed := prime bus first n { b with masters := b.masters.set bus m }
  have steady : Steady b primed := .prime bus first n m
  have started : start bus t b = schedulePoll bus primed := start_accepted accepted taken
  have bound : primed.kernel.isBound (.poll bus) = true := poll_bound_prime first n
  obtain ⟨b', scheduled⟩ := schedulePoll_bound bound
  refine ⟨b', started.trans scheduled, ?_, fun orderly => ?_⟩
  · have apart := apart_schedulePoll (fun _ => True) scheduled
    have pending := pending_schedulePoll scheduled
    obtain ⟨k, events, rfl, -⟩ := requeued_schedulePoll scheduled
    constructor
    case sent =>
      refine ⟨first, apart.wires.trans (wires_prime first n), ?_⟩
      simp [primed, masters_prime, Master.begin, controller]
    case busy => simp [primed, masters_prime, Master.begin]
    case memory => rfl
    case pending => exact pending
  · obtain ⟨primed_orderly, chains⟩ := (steady.holds _ orderly).orderly
    obtain ⟨k, added, still, stays, queued⟩ := primed_orderly.add (primed.feedQueue bus) bound
    rw [schedulePoll_eq, added] at scheduled
    cases scheduled
    rw [chains] at stays queued
    rw [steady.feeds] at queued
    exact ⟨still, stays, queued⟩

/-- A transfer is refused exactly if its arguments break its contract, and nothing has changed
then. Otherwise one byte has been sent when the start returns, the transfer is in progress, and the
poll task is at the end of the main queue unless it sat in a queue before. -/
theorem refused_transfers_leave_no_trace (bus : Nat) (t : Transfer) (b : Board) :
    (t.Malformed → ∃ cause, start bus t b = .error (.fault cause) b) ∧
    (¬ t.Malformed → ∃ b', start bus t b = .ok () b' ∧ Launched bus b b' ∧
      (b.kernel.Orderly → PollQueued bus b b' ∧
        (.poll bus ∈ b'.kernel.chain (b.feedQueue bus) ∨
          ∃ q, q ≠ b.feedQueue bus ∧ .poll bus ∈ b.kernel.chain q))) := by
  constructor
  · intro malformed
    cases fault : t.fault? with
    | none => exact absurd malformed (Transfer.fault_eq_none.mp fault)
    | some cause => exact ⟨cause, start_refused fault⟩
  · intro proper
    obtain ⟨b', started, launched, queues⟩ :=
      launched_of_start bus b (Transfer.fault_eq_none.mpr proper)
    refine ⟨b', started, launched, fun orderly => ?_⟩
    have queued := queues orderly
    exact ⟨queued, queued.place⟩

/-- A write queues the poll task of a new bus. Two buffers of unequal length are refused in the
middle of it, and what is started on top of it finds the poll task queued. -/
theorem unequal_pair_is_refused_during_a_write :
    let b := ({ buses := [{}], buffers := [[0, 0]] } : Plan).bootBoard
    ∃ b₁ b₂ cause, start 0 (.write (.bytes [1, 2])) b = .ok () b₁ ∧
      (b₁.masters.get 0).status = .inProgress ∧ b₁.kernel.chain (.main 0) = [.poll 0] ∧
      start 0 (.exchangeList [[1], [2]] [⟨0, 1⟩, ⟨0, 2⟩]) b₁ = .error (.fault cause) b₁ ∧
      start 0 (.read ⟨0, 2⟩) b₁ = .ok () b₂ ∧ b₂.kernel.chain (.main 0) = [.poll 0] := by
  intro b
  obtain ⟨orderly, empty⟩ : b.kernel.Orderly ∧ b.kernel.chain = fun _ => [] :=
    (Kernel.bootKernel_fresh _).holds.orderly
  have nowhere : ∀ q, TaskId.poll 0 ∉ b.kernel.chain q := by simp [empty]
  obtain ⟨-, launches⟩ := refused_transfers_leave_no_trace 0 (.write (.bytes [1, 2])) b
  obtain ⟨b₁, started, launched, places⟩ := launches id
  have queued := (places orderly).1
  have chain : b₁.kernel.chain (.main 0) = [.poll 0] := by
    rw [queued.queued nowhere, empty]
    rfl
  obtain ⟨refused, -⟩ :=
    refused_transfers_leave_no_trace 0 (.exchangeList [[1], [2]] [⟨0, 1⟩, ⟨0, 2⟩]) b₁
  obtain ⟨cause, unchanged⟩ := refused (by simp [Transfer.Malformed])
  obtain ⟨-, overlaps⟩ := refused_transfers_leave_no_trace 0 (.read ⟨0, 2⟩) b₁
  obtain ⟨b₂, again, -, stays⟩ := overlaps id
  have same := (stays queued.orderly).1.stays ⟨.main 0, by rw [chain]; exact List.mem_cons_self⟩
  exact ⟨b₁, b₂, cause, started, launched.busy, chain, unchanged, again, same ▸ chain⟩

end Board

end CoopKernel
