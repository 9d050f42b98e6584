import CoopKernel.Proofs.BoardOperations
import CoopKernel.Proofs.BusClients

/-!
# Leaving a poll task where it is

The poll task of a bus stays in the queues it is in as long as nobody else
submits it, takes it out or runs it. Everything else that a board can do, on
other buses too, leaves its transfer and the traffic of its bus alone.
-/

namespace CoopKernel

open Spi Exec

namespace Kernel

structure Regular (bus : Nat) (k : Kernel) : Prop where
  orderly : k.Orderly
  holder : ∀ n, k.holder n ≠ some (.poll bus)

/-- The poll task of the bus is in the same queues as before, and nothing went over the bus. -/
structure Stays (bus : Nat) (k k' : Kernel) : Prop where
  regular : k'.Regular bus
  feeds : ∀ n, k'.feeds n = k.feeds n
  place : ∀ q, .poll bus ∈ k'.chain q ↔ .poll bus ∈ k.chain q
  wires : k'.wires bus = k.wires bus

variable {k k' k'' : Kernel} {bus : Nat} {q : QueueId} {n : NestId} {t : TaskId}

theorem Regular.refl (h : k.Regular bus) : k.Stays bus k :=
  ⟨h, fun _ => rfl, fun _ => Iff.rfl, rfl⟩

theorem Stays.trans (h : k.Stays bus k') (h' : k'.Stays bus k'') : k.Stays bus k'' where
  regular := h'.regular
  feeds n := (h'.feeds n).trans (h.feeds n)
  place q := (h'.place q).trans (h.place q)
  wires := h'.wires.trans h.wires

theorem Rearranged.stays {lists : QueueId → List TaskId} (same : k.Rearranged k')
    (holds : k'.Holds lists) (place : ∀ q, .poll bus ∈ lists q ↔ .poll bus ∈ k.chain q)
    (holder : ∀ n, k'.holder n ≠ some (.poll bus)) : k.Stays bus k' := by
  obtain ⟨orderly, chains⟩ := holds.orderly
  refine ⟨⟨orderly, holder⟩, same.feeds, fun q => ?_, same.wires bus⟩
  rw [chains]
  exact place q

/-- Something was changed that has nothing to do with queues. -/
theorem Regular.elsewhere (h : k.Regular bus) (tasks : k'.tasks = k.tasks)
    (queues : k'.queues = k.queues) (nests : k'.nests = k.nests)
    (wires : k'.wires bus = k.wires bus) : k.Stays bus k' := by
  obtain ⟨orderly, chains⟩ := (Holds.congr h.orderly tasks queues).orderly
  refine ⟨⟨orderly, fun n => ?_⟩, fun n => ?_, fun q => by rw [chains], wires⟩
  · rw [Kernel.holder, nests]
    exact h.holder n
  · rw [feeds, nests, feeds]

theorem Regular.add (h : k.Regular bus) (q : QueueId) (other : t ≠ .poll bus) :
    k.Stays bus (final (Kernel.add q t) k) := by
  cases bound : k.isBound t with
  | false =>
    rw [final_error (add_unbound q bound)]
    exact h.refl
  | true =>
    obtain ⟨k', lists', added, holds, same, holder, result⟩ := Holds.add h.orderly q bound
    rw [final_ok added]
    refine same.stays holds (fun r => ?_) fun n => holder n ▸ h.holder n
    rw [result]
    split
    · rfl
    · rw [mem_append]
      exact or_iff_left fun now => other now.1.symm

theorem Regular.addOptional (h : k.Regular bus) (q : QueueId) {t : Option TaskId}
    (other : t ≠ some (.poll bus)) : k.Stays bus (final (Kernel.addOptional q t) k) := by
  cases t with
  | none => exact h.refl
  | some t => exact h.add q fun same => other (congrArg some same)

theorem Regular.pop (h : k.Regular bus) (q : QueueId) (other : (k.pop q).1 ≠ some (.poll bus)) :
    k.Stays bus (k.pop q).2 := by
  cases split : k.chain q with
  | nil =>
    obtain ⟨k', popped, holds, relinked⟩ := Holds.pop_nil h.orderly split
    rw [popped]
    exact (relinked.rearranged (by simp)).stays holds (fun _ => Iff.rfl) fun n =>
      relinked.holder n ▸ h.holder n
  | cons t rest =>
    obtain ⟨k', popped, holds, relinked⟩ := Holds.pop_cons h.orderly split
    rw [popped] at other ⊢
    refine (relinked.rearranged (by simp [Event.wire?])).stays holds (fun r => ?_) fun n =>
      relinked.holder n ▸ h.holder n
    rw [mem_remove split (h.orderly.nodup q) h.orderly.apart]
    exact and_iff_left fun same => other (congrArg some same.symm)

theorem mem_of_pop (orderly : k.Orderly) (first : (k.pop q).1 = some t) : t ∈ k.chain q := by
  cases split : k.chain q with
  | nil =>
    obtain ⟨k', popped, -⟩ := Holds.pop_nil orderly split
    rw [popped] at first
    cases first
  | cons u rest =>
    obtain ⟨k', popped, -⟩ := Holds.pop_cons orderly split
    rw [popped] at first
    cases first
    exact List.mem_cons_self

theorem Regular.isEmpty (h : k.Regular bus) (q : QueueId) : k.Stays bus (k.isEmpty q).2 := by
  obtain ⟨k', looked, holds, relinked⟩ := Holds.isEmpty h.orderly q
  rw [looked]
  exact (relinked.rearranged (by simp)).stays holds (fun _ => Iff.rfl) fun n =>
    relinked.holder n ▸ h.holder n

theorem Regular.count (h : k.Regular bus) (q : QueueId) : k.Stays bus (k.count q).2 := by
  obtain ⟨k', counted, holds, relinked⟩ := Holds.count h.orderly q
  rw [counted]
  exact (relinked.rearranged (by simp)).stays holds (fun _ => Iff.rfl) fun n =>
    relinked.holder n ▸ h.holder n

/-- A task without a worker is refused, but a free resource is granted to it all the same. -/
theorem Holds.submit_unbound {lists : QueueId → List TaskId} (h : k.Holds lists) (n : NestId)
    (unbound : k.isBound t = false) :
    ∃ k', Kernel.submit n t k = .error (.fault .queuedWithoutWorker) k' ∧ k'.Holds lists ∧
      k.Rearranged k' ∧ ∀ m, k'.holder m = if m = n then some ((k.holder n).getD t)
        else k.holder m := by
  have off : k.disable.Rearranged k.disable := ⟨rfl, fun _ => rfl, fun _ => rfl, fun _ => rfl⟩
  cases held : k.disable.holder n with
  | some current =>
    have held' : k.holder n = some current := held
    have refused := add_unbound (k := k.disable) (.waiting n) unbound
    refine ⟨k.disable.restore k.cpu.enabled, ?_, h.congr rfl rfl, off.section, fun m => ?_⟩
    · simp only [Kernel.submit, critical, Kernel.place, held, refused]
    · rw [held', Option.getD_some, ← held']
      change k.holder m = _
      split
      · rename_i same
        rw [same]
      · rfl
  | none =>
    have held' : k.holder n = none := held
    have granted := rearranged_grant (k := k.disable) n t
    have refused := add_unbound (k.disable.feeds n) ((granted.bound t).trans unbound)
    refine ⟨(k.disable.grant n t).restore k.cpu.enabled, ?_, (h.disable.grant n t).congr rfl rfl,
      granted.section, fun m => ?_⟩
    · simp only [Kernel.submit, critical, Kernel.place, held, refused]
    · rw [held', Option.getD_none]
      exact holder_grant n m t

/-- Submitting another task leaves the poll task where it is. -/
theorem Regular.submit (h : k.Regular bus) (n : NestId) (other : t ≠ .poll bus) :
    k.Stays bus (final (Kernel.submit n t) k) := by
  have granted : ∀ m, (if m = n then some ((k.holder n).getD t) else k.holder m) ≠
      some (.poll bus) := by
    intro m
    split
    · cases held : k.holder n with
      | none => simpa using other
      | some c => exact held ▸ h.holder n
    · exact h.holder m
  cases bound : k.isBound t with
  | false =>
    obtain ⟨k', refused, holds, same, holder⟩ := Holds.submit_unbound h.orderly n bound
    rw [final_error refused]
    exact same.stays holds (fun _ => Iff.rfl) fun m => holder m ▸ granted m
  | true =>
    obtain ⟨k', lists', answered, holds, same, holder, result⟩ := Holds.submit h.orderly n bound
    rw [final_ok answered]
    refine same.stays holds (fun r => ?_) fun m => holder m ▸ granted m
    rw [result]
    split
    · rfl
    · rw [mem_append]
      exact or_iff_left fun now => other now.1.symm

/-- A handover leaves the poll task where it is, unless that waits for the resource. -/
theorem Regular.handOver (h : k.Regular bus) (n : NestId) (out : .poll bus ∉ k.chain (.waiting n)) :
    k.Stays bus (final (Kernel.handOver n) k) := by
  cases first : k.chain (.waiting n) with
  | nil =>
    obtain ⟨k', left, holds, same, holder⟩ := Holds.handOver_nil h.orderly first
    rw [final_ok left]
    refine same.stays holds (fun _ => Iff.rfl) fun m => ?_
    rw [holder]
    split
    · exact fun none_held => by cases none_held
    · exact h.holder m
  | cons t rest =>
    obtain ⟨k', left, holds, same, holder⟩ := Holds.handOver_cons h.orderly first
    have other : TaskId.poll bus ≠ t := by
      rintro rfl
      exact out (first ▸ List.mem_cons_self)
    rw [final_ok left]
    refine same.stays holds (fun r => ?_) fun m => ?_
    · rw [mem_append, mem_remove first (h.orderly.nodup _) h.orderly.apart]
      exact ⟨fun now => now.elim And.left fun moved => absurd moved.1 other,
        fun before => Or.inl ⟨before, other⟩⟩
    · rw [holder]
      split
      · exact fun held => other (Option.some.inj held).symm
      · exact h.holder m

theorem Regular.putWorker (h : k.Regular bus) (t : TaskId) (w : Worker) :
    k.Stays bus (k.putWorker t w) := by
  obtain ⟨orderly, chains⟩ := (Holds.putWorker h.orderly t w).orderly
  have nests : (k.putWorker t w).nests = k.nests := by
    rw [Kernel.putWorker, expose]
    split <;> rfl
  refine ⟨⟨orderly, fun n => ?_⟩, fun n => ?_, fun q => by rw [chains],
    wires_expose (.worker t)⟩
  · rw [Kernel.holder, nests]
    exact h.holder n
  · rw [feeds, nests, feeds]

theorem Regular.note (h : k.Regular bus) {e : Event} (silent : e.wire? bus = none) :
    k.Stays bus (k.note e) :=
  h.elsewhere rfl rfl rfl
    (wires_of_trace (show _ = [e] ++ k.trace from rfl) (by simpa using silent))

theorem Regular.bindHandler (h : k.Regular bus) (id : Nat) (script : Option Nat) :
    k.Stays bus (final (Kernel.bindHandler id script) k) := by
  rw [final_bindHandler]
  split
  · rw [enclosed, Kernel.putHandler, expose_of_disabled rfl]
    exact h.elsewhere rfl rfl rfl rfl
  · exact h.refl

theorem Regular.tryBindHandler (h : k.Regular bus) (id script : Nat) :
    k.Stays bus (final (Kernel.tryBindHandler id script) k) := by
  rw [final_tryBindHandler]
  exact h.bindHandler id (some script)

theorem Regular.raise (h : k.Regular bus) (id : Nat) :
    k.Stays bus (final (Kernel.raise id) k) := by
  rw [final_raise]
  split
  · exact h.elsewhere rfl rfl rfl
      (wires_of_trace (show _ = [.raised id _] ++ k.trace from rfl) (by simp [Event.wire?]))
  · exact h.refl

end Kernel

namespace Board

structure Spared (bus : Nat) (b b' : Board) : Prop where
  kernel : b.kernel.Stays bus b'.kernel
  transfer : (b.masters.get bus).SameTransfer (b'.masters.get bus)

/-- Queues, transfers and traffic are left alone. Hardware, memory, chips, handlers, the terminal
and the interrupt flag may be something else. -/
structure Around (b b' : Board) : Prop where
  tasks : b'.kernel.tasks = b.kernel.tasks
  queues : b'.kernel.queues = b.kernel.queues
  nests : b'.kernel.nests = b.kernel.nests
  wires : ∀ bus, b'.kernel.wires bus = b.kernel.wires bus
  transfers : ∀ bus, (b.masters.get bus).SameTransfer (b'.masters.get bus)

variable {b b₁ b' : Board} {bus p i : Nat}

theorem Spared.trans (h : Spared bus b b₁) (h' : Spared bus b₁ b') : Spared bus b b' :=
  ⟨h.kernel.trans h'.kernel, h.transfer.trans h'.transfer⟩

theorem Spared.regular (h : Spared bus b b') : b'.kernel.Regular bus := h.kernel.regular

theorem spared_onKernel {α : Type} {x : Exec Kernel α}
    (stays : b.kernel.Stays bus (final x b.kernel)) : Spared bus b (final (onKernel x) b) := by
  rw [final_onKernel]
  exact ⟨stays, .refl _⟩

theorem Around.spared (h : Around b b') (regular : b.kernel.Regular bus) : Spared bus b b' :=
  ⟨regular.elsewhere h.tasks h.queues h.nests (h.wires bus), h.transfers bus⟩

theorem Beside.around (h : Beside i b b') : Around b b' := by
  obtain ⟨events, trace, framing⟩ := h.trace
  refine ⟨h.tasks, h.queues, h.nests, fun bus => ?_, h.transfers⟩
  refine Kernel.wires_of_trace trace fun e mem => ?_
  have frames := framing e mem
  cases e <;> first | rfl | cases frames

theorem final_schedulePoll (p : Nat) (b : Board) :
    final (schedulePoll p) b =
      { b with kernel := final (Kernel.add (b.feedQueue p) (.poll p)) b.kernel } :=
  (final_answer _ () b).trans (final_onKernel _ b)

theorem final_wakeHolder (p : Nat) (b : Board) :
    final (wakeHolder p) b =
      let woken := Kernel.addOptional (b.feedQueue p) (b.kernel.holder (.bus p))
      { b with kernel := final woken b.kernel } :=
  (final_answer _ () b).trans (final_onKernel _ b)

theorem spared_schedulePoll (regular : b.kernel.Regular bus) (other : p ≠ bus) :
    Spared bus b (final (schedulePoll p) b) := by
  rw [final_schedulePoll]
  exact ⟨regular.add _ fun same => other (TaskId.poll.inj same), .refl _⟩

theorem spared_wakeHolder (regular : b.kernel.Regular bus) :
    Spared bus b (final (wakeHolder p) b) := by
  rw [final_wakeHolder]
  exact ⟨regular.addOptional _ (regular.holder _), .refl _⟩

/-- A change of the master of another bus. -/
theorem spared_masters (regular : b.kernel.Regular bus) (other : p ≠ bus) (m : Master) :
    Spared bus b { b with masters := b.masters.set p m } := by
  refine ⟨regular.refl, ?_⟩
  change (b.masters.get bus).SameTransfer ((b.masters.set p m).get bus)
  rw [Bank.get_set_ne _ _ other.symm]
  exact .refl _

theorem spared_prime (regular : b.kernel.Regular bus) (other : p ≠ bus) (first : UInt8) (n : Nat) :
    Spared bus b (prime p first n b) := by
  have bound := regular.putWorker (.poll p) (.poller p)
  have silent : (Event.wire p (.tx first)).wire? bus = none := by simp [Event.wire?, other]
  refine ⟨bound.trans (bound.regular.note silent), ?_⟩
  simp only [prime, send, modifyController, modifyMaster, note, Bank.get_modify, if_neg other.symm]
  exact .refl _

theorem spared_polled (regular : b.kernel.Regular bus) (other : p ≠ bus) :
    Spared bus b (b.polled p) := by
  refine ⟨regular.elsewhere rfl rfl rfl (Kernel.wires_of_trace rfl fun e mem => ?_), ?_⟩
  · obtain ⟨w, -, rfl⟩ := List.mem_map.mp mem
    simp [Event.wire?, other]
  · change (b.masters.get bus).SameTransfer ((b.masters.set p _).get bus)
    rw [Bank.get_set_ne _ _ other.symm]
    exact .refl _

theorem spared_start (regular : b.kernel.Regular bus) (other : p ≠ bus) (t : Transfer) :
    Spared bus b (final (start p t) b) := by
  cases accepted : t.fault? with
  | some cause =>
    rw [final_error (start_refused accepted)]
    exact ⟨regular.refl, .refl _⟩
  | none =>
    rcases taken : (b.masters.get p).accept b.memory t with ⟨first, n, m⟩
    rw [final, start_accepted accepted taken]
    have set := spared_masters regular other m
    have primed := set.trans (spared_prime set.regular other first n)
    exact primed.trans (spared_schedulePoll primed.regular other)

/-- The poll task of another bus has its own master, wire and queue entry. -/
theorem spared_runPoller (regular : b.kernel.Regular bus) (other : p ≠ bus) :
    Spared bus b (final (runPoller p) b) := by
  rw [final]
  cases pollerRun p b with
  | polling _ _ ran =>
    rw [ran]
    have polled := spared_polled regular other
    exact polled.trans (spared_schedulePoll polled.regular other)
  | polled _ _ ran =>
    rw [ran]
    have polled := spared_polled regular other
    exact polled.trans (spared_wakeHolder polled.regular)
  | @loaded first n m _ _ ran =>
    rw [ran]
    have set := spared_masters regular other m
    have primed := set.trans (spared_prime set.regular other first n)
    exact primed.trans (spared_schedulePoll primed.regular other)
  | @ended m _ _ ran =>
    rw [ran]
    have set := spared_masters regular other m
    have finished : Spared bus b
        (modifyMaster p Master.finish { b with masters := b.masters.set p m }) :=
      set.trans (spared_masters set.regular other _)
    exact finished.trans (spared_wakeHolder finished.regular)

end Board

end CoopKernel
