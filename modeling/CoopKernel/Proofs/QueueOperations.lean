import CoopKernel.Proofs.QueueLists

/-!
# Queue operations as list operations

What each operation of a queue answers and what becomes of the lists, for every
kernel that holds lists. `Relinked` says what it leaves alone.
-/

namespace CoopKernel.Kernel

variable {k k' : Kernel} {lists : QueueId → List TaskId} {q : QueueId} {t : TaskId}

theorem Holds.disable (h : k.Holds lists) : k.disable.Holds lists := h.congr rfl rfl

theorem Relinked.refl : k.Relinked k [] := ⟨rfl, rfl, rfl, rfl, rfl, fun _ => rfl, le_rfl⟩

/-- A task in any queue is refused, and nothing happens to the queues. -/
theorem Holds.add_queued (h : k.Holds lists) (q : QueueId) (busy : k.isQueued t = true) :
    ∃ k', add q t k = .ok false k' ∧ k'.Holds lists ∧ k.Relinked k' [] := by
  have bound := h.bound t busy
  have busy' : k.disable.isQueued t = true := busy
  refine ⟨k.disable.restore k.cpu.enabled, ?_, h.congr rfl rfl, Relinked.refl.section⟩
  simp [add, bound, offer, enclosed, busy']

/-- A task in no queue is appended. -/
theorem Holds.add_idle (h : k.Holds lists) (q : QueueId) (bound : k.isBound t = true)
    (idle : k.isQueued t = false) :
    ∃ k', add q t k = .ok true k' ∧ k'.Holds (Function.update lists q (lists q ++ [t])) ∧
      k.Relinked k' [.enqueued q t] := by
  have idle' : k.disable.isQueued t = false := idle
  refine ⟨(k.disable.link q t).restore k.cpu.enabled, ?_, ?_, (relinked_link rfl).section⟩
  · simp [add, bound, offer, enclosed, idle']
  · exact (h.disable.link rfl idle bound).congr rfl rfl

theorem add_unbound (q : QueueId) (unbound : k.isBound t = false) :
    add q t k = .error (.fault .queuedWithoutWorker) k := by
  simp [add, unbound]

theorem Holds.pop_nil (h : k.Holds lists) (empty : lists q = []) :
    ∃ k', k.pop q = (none, k') ∧ k'.Holds lists ∧ k.Relinked k' [] := by
  have first : (k.disable.queues.get q).head = none := (h.head q).trans (by rw [empty]; rfl)
  refine ⟨k.disable.restore k.cpu.enabled, ?_, h.congr rfl rfl, Relinked.refl.section⟩
  simp [Kernel.pop, enclosed, Kernel.unlink, first]

theorem Holds.pop_cons (h : k.Holds lists) {rest : List TaskId} (split : lists q = t :: rest) :
    ∃ k', k.pop q = (some t, k') ∧ k'.Holds (Function.update lists q rest) ∧
      k.Relinked k' [.dequeued q t] := by
  have first : (k.disable.queues.get q).head = some t := (h.head q).trans (by rw [split]; rfl)
  have fst : (k.disable.unlink q).1 = some t := unlink_fst.trans first
  refine ⟨(k.disable.unlink q).2.restore k.cpu.enabled, ?_, ?_,
    (relinked_unlink rfl first).section⟩
  · rw [pop, enclosed, ← fst]
  · exact (h.disable.unlink rfl split).congr rfl rfl

theorem Holds.count (h : k.Holds lists) (q : QueueId) :
    ∃ k', k.count q = ((lists q).length, k') ∧ k'.Holds lists ∧ k.Relinked k' [] := by
  refine ⟨k.disable.restore k.cpu.enabled, ?_, h.congr rfl rfl, Relinked.refl.section⟩
  simp [Kernel.count, enclosed, Kernel.length, h.disable.chain q]

theorem Holds.isEmpty (h : k.Holds lists) (q : QueueId) :
    ∃ k', k.isEmpty q = ((lists q).isEmpty, k') ∧ k'.Holds lists ∧ k.Relinked k' [] := by
  refine ⟨k.disable.restore k.cpu.enabled, ?_, h.congr rfl rfl, Relinked.refl.section⟩
  have head : (k.disable.queues.get q).head = (lists q).head? := h.head q
  cases hl : lists q <;> simp [Kernel.isEmpty, enclosed, head, hl]

theorem tasks_putWorker (u v : TaskId) (w : Worker) :
    (k.putWorker u w).tasks.get v =
      { k.tasks.get v with worker := if v = u then some w else (k.tasks.get v).worker } := by
  simp only [putWorker, Bank.get_modify]
  by_cases hv : v = u <;> simp [hv]

theorem queues_putWorker (u : TaskId) (w : Worker) : (k.putWorker u w).queues = k.queues := by
  rw [putWorker, expose]
  split <;> rfl

/-- A worker is only ever replaced by another. -/
theorem isBound_putWorker (u v : TaskId) (w : Worker) :
    (k.putWorker u w).isBound v = (decide (v = u) || k.isBound v) := by
  rw [isBound, tasks_putWorker, isBound]
  by_cases hv : v = u <;> simp [hv]

theorem Holds.putWorker (h : k.Holds lists) (u : TaskId) (w : Worker) :
    (k.putWorker u w).Holds lists := by
  have queued : ∀ v, (k.putWorker u w).isQueued v = k.isQueued v := by
    intro v
    rw [isQueued, tasks_putWorker, isQueued]
  have next : ∀ v, ((k.putWorker u w).tasks.get v).next = (k.tasks.get v).next := by
    intro v
    rw [tasks_putWorker]
  have size : k.tasks.size ≤ (k.putWorker u w).tasks.size := by
    simp only [Kernel.putWorker, Bank.modify, Bank.size_set]
    omega
  constructor
  case linked =>
    intro q
    rw [queues_putWorker]
    exact segment_congr (h.linked q) fun v _ => next v
  case tail => intro q; rw [queues_putWorker]; exact h.tail q
  case nodup => exact h.nodup
  case apart => exact h.apart
  case queued_iff => intro v; rw [queued v]; exact h.queued_iff v
  case loose => intro v hv; rw [next v]; exact h.loose v (queued v ▸ hv)
  case bound =>
    intro v hv
    rw [isBound_putWorker, h.bound v (queued v ▸ hv), Bool.or_true]
  case stored => intro v hv; exact lt_of_lt_of_le (h.stored v (queued v ▸ hv)) size

end CoopKernel.Kernel
