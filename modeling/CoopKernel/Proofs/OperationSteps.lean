import CoopKernel.Proofs.BoardOperations
import CoopKernel.Proofs.KernelSteps

/-!
# Operations as steps of the kernel

Every operation of a board, stopped or not, takes the kernel from step to step. A
chip only frames itself and prints before a transfer that it may start.
-/

namespace CoopKernel

open Spi Exec

variable {reserved : Nat → Prop}

/-- Framing concerns neither queues nor soft interrupts. -/
theorem Event.plain_of_framing {e : Event} (framing : e.isFraming = true) :
    e.isSoft = false ∧ e.isQueueing = false := by
  cases e <;> first | exact ⟨rfl, rfl⟩ | cases framing

theorem Kernel.steps_addOptional (q : QueueId) (t : Option TaskId) (k : Kernel) :
    k.Steps reserved (final (addOptional q t) k) := by
  cases t with
  | none => exact .refl
  | some t => exact .single (.add q t)

namespace Board

variable {b b' : Board} {i : Nat}

section

variable {α : Type} {x : Exec Kernel α}

theorem steps_onKernel (steps : ∀ k : Kernel, k.Steps reserved (final x k)) (b : Board) :
    b.kernel.Steps reserved (final (onKernel x) b).kernel := by
  rw [final_onKernel]
  exact steps b.kernel

/-- The same with the answer dropped. -/
theorem steps_dropped (steps : ∀ k : Kernel, k.Steps reserved (final x k)) (b : Board) :
    b.kernel.Steps reserved (final (do let _ ← onKernel x : Exec Board Unit) b).kernel := by
  rw [final_answer]
  exact steps_onKernel steps b

end

theorem steps_schedulePoll (bus : Nat) (b : Board) :
    b.kernel.Steps reserved (final (schedulePoll bus) b).kernel := by
  rw [schedulePoll, final_get]
  exact steps_dropped (fun _ => .single (.add _ _)) b

theorem steps_wakeHolder (bus : Nat) (b : Board) :
    b.kernel.Steps reserved (final (wakeHolder bus) b).kernel := by
  rw [wakeHolder, final_get]
  exact steps_dropped (Kernel.steps_addOptional _ _) b

theorem steps_prime (bus : Nat) (first : UInt8) (n : Nat) (b : Board) :
    b.kernel.Steps reserved (prime bus first n b).kernel :=
  .tail (.single (.bindWorker (.poll bus) (.poller bus)))
    (.remark (.wire bus (.tx first)) ⟨rfl, rfl⟩)

theorem steps_start (bus : Nat) (t : Transfer) (b : Board) :
    b.kernel.Steps reserved (final (start bus t) b).kernel := by
  cases accepted : t.fault? with
  | some cause =>
    rw [final_error (start_refused accepted)]
  | none =>
    rcases taken : (b.masters.get bus).accept b.memory t with ⟨first, n, m⟩
    rw [final, start_accepted accepted taken]
    exact (steps_prime bus first n { b with masters := b.masters.set bus m }).trans
      (steps_schedulePoll bus _)

theorem steps_polled (bus : Nat) (b : Board) :
    b.kernel.Steps reserved (b.polled bus).kernel := by
  refine Kernel.steps_remarks (fun e mem => ?_) b.kernel
  obtain ⟨w, -, rfl⟩ := List.mem_map.mp mem
  exact ⟨rfl, rfl⟩

theorem steps_runPoller (bus : Nat) (b : Board) :
    b.kernel.Steps reserved (final (runPoller bus) b).kernel := by
  rw [final]
  cases pollerRun bus b with
  | polling _ _ ran =>
    rw [ran]
    exact (steps_polled bus b).trans (steps_schedulePoll bus _)
  | polled _ _ ran =>
    rw [ran]
    exact (steps_polled bus b).trans (steps_wakeHolder bus _)
  | @loaded first n m _ _ ran =>
    rw [ran]
    exact (steps_prime bus first n { b with masters := b.masters.set bus m }).trans
      (steps_schedulePoll bus _)
  | @ended m _ _ ran =>
    rw [ran]
    exact steps_wakeHolder bus (modifyMaster bus Master.finish { b with masters := _ })

theorem Beside.steps (h : Beside i b b') : b.kernel.Steps reserved b'.kernel := by
  obtain ⟨events, trace, framing⟩ := h.trace
  have same : b'.kernel = ⟨b'.kernel.cpu, b.kernel.tasks, b.kernel.queues, b.kernel.nests,
      b.kernel.soft, events ++ b.kernel.trace⟩ := by
    rw [← h.tasks, ← h.queues, ← h.nests, ← h.soft, ← trace]
  rw [same]
  have plain : ∀ e ∈ events, e.isSoft = false ∧ e.isQueueing = false :=
    fun e mem => Event.plain_of_framing (framing e mem)
  exact (Kernel.steps_remarks plain b.kernel).tail (.cpu b'.kernel.cpu)

theorem Asks.steps (h : Asks i b b') : b.kernel.Steps reserved b'.kernel := by
  obtain ⟨mid, beside, rfl | ⟨t, rfl⟩⟩ := h
  · exact beside.steps
  · exact beside.steps.trans (steps_start _ t mid)

/-- No operation but a pop takes a task out of a main queue. -/
theorem steps_run (op : Operation) (common : ∀ i, reserved i → op ≠ .pop (.main i)) (b : Board) :
    b.kernel.Steps reserved (final op.run b).kernel := by
  cases op with
  | add q t => exact steps_dropped (Kernel.steps_addOptional q t) b
  | pop q =>
    have other : ∀ i, reserved i → q ≠ .main i := by
      rintro i kept rfl
      exact common i kept rfl
    exact .single (.pop q other)
  | isEmpty q => exact .single (.isEmpty q)
  | count q => exact .single (.count q)
  | submit n t => exact steps_dropped (Kernel.steps_submit n t) b
  | handOver n => exact steps_onKernel (Kernel.steps_handOver n) b
  | bindWorker task script => exact .single (.bindWorker (.user task) (.script script))
  | bindHandler id script => exact steps_onKernel (fun _ => .single (.bindHandler id script)) b
  | tryBindHandler id script =>
    refine steps_dropped (fun k => ?_) b
    rw [Kernel.final_tryBindHandler]
    exact .single (.bindHandler id (some script))
  | raise id => exact steps_onKernel (fun _ => .single (.raise id)) b
  | start bus t => exact steps_start bus t b
  | request bus t => exact steps_dropped (Kernel.steps_submit (.bus bus) t) b
  | release bus => exact steps_onKernel (Kernel.steps_handOver (.bus bus)) b
  | runPoller bus => exact steps_runPoller bus b
  | select d => exact (beside_select 0 d b).steps
  | deselect d => exact (beside_deselect 0 d b).steps
  | identifyChip i => exact ((asks_identifyChip i).answer _ b).steps
  | awaitChip i => exact ((asks_awaitChip i).answer _ b).steps
  | askStatus i => exact (asks_sendScratch i _ b).steps
  | askId i => exact (asks_sendScratch i _ b).steps
  | command i c => exact (asks_command i c b).steps
  | print level message => exact (obeys_print 0 level message b).steps

end Board

end CoopKernel
