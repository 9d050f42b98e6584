import CoopKernel.Proofs.LoopHistory
import CoopKernel.Proofs.NestOperations

/-!
# Requests that are refused

A task that sits in some queue is refused when it asks for a resource. It may
sit in a main queue, wait behind this resource or behind another one, and the
resource may be held or free. A refusal moves nobody, but who holds the resource
is settled before: a free one is granted to the task that is refused.
-/

namespace CoopKernel

namespace Kernel

variable {k k' : Kernel} {lists lists' : QueueId → List TaskId} {n : NestId} {t : TaskId}

/-- All that is left of a request that was refused. -/
theorem Asked.of_queued (asked : k.Asked k' lists lists' n t) (holds : k.Holds lists)
    (queued : k.isQueued t = true) :
    (∀ q, k'.chain q = k.chain q) ∧ (∀ u, k'.isQueued u = k.isQueued u) ∧
      ∀ m, k'.holder m = if m = n then some ((k.holder n).getD t) else k.holder m := by
  have same : lists' = lists := by rw [asked.result, if_pos queued]
  have holds' : k'.Holds lists := same ▸ asked.holds
  refine ⟨fun q => ?_, fun u => ?_, asked.holder⟩
  · rw [holds'.chain, holds.chain]
  · rw [Bool.eq_iff_iff, holds'.queued_iff, holds.queued_iff]

/-- A request that was not refused put the task last in one queue. -/
theorem Asked.of_idle (asked : k.Asked k' lists lists' n t) (holds : k.Holds lists)
    (idle : k.isQueued t = false) (q : QueueId) :
    k'.chain q = if q = k.entry n then k.chain q ++ [t] else k.chain q := by
  rw [asked.holds.chain, holds.chain, asked.result, if_neg (by simp [idle])]
  split
  · rename_i same
    rw [same, Function.update_self]
  · rename_i other
    rw [Function.update_of_ne other]

/-- Whatever happened before: a task with a worker that asks for a resource is told whether it was
in no queue. When it was in one, all queues and flags and the holders of all other resources stay,
and a held resource stays with its holder. A free resource is granted to the task although it is
refused. -/
theorem refused_task_is_granted_a_free_resource (p : Plan)
    (reached : p.bootKernel.Steps (fun _ => False) k) (n : NestId)
    (bound : k.isBound t = true) :
    ∃ answer k', Kernel.submit n t k = .ok answer k' ∧ (answer = true ↔ ∀ q, t ∉ k.chain q) ∧
      (answer = true → ∀ q, k'.chain q = if q = k.entry n then k.chain q ++ [t] else k.chain q) ∧
      (answer = false → (∀ q, k'.chain q = k.chain q) ∧ (∀ u, k'.isQueued u = k.isQueued u) ∧
        (∀ m, m ≠ n → k'.holder m = k.holder m) ∧
        (k.holder n ≠ none → k'.holder n = k.holder n) ∧
        (k.holder n = none → k'.holder n = some t)) := by
  obtain ⟨lists, holds⟩ := reached.holds (bootKernel_fresh p).holds
  obtain ⟨k', lists', answered, asked⟩ := holds.submit n bound
  refine ⟨_, k', answered, ?_, fun taken => ?_, fun refused => ?_⟩
  · rw [Bool.not_eq_true', ← Bool.not_eq_true, holds.queued_iff, not_exists]
    simp only [holds.chain]
  · exact asked.of_idle holds (by simpa using taken)
  · obtain ⟨chains, flags, holder⟩ := asked.of_queued holds (by simpa using refused)
    refine ⟨chains, flags, fun m other => ?_, fun held => ?_, fun free => ?_⟩
    · rw [holder, if_neg other]
    · obtain ⟨h, held⟩ := Option.ne_none_iff_exists'.mp held
      rw [holder, if_pos rfl, held, Option.getD_some]
    · rw [holder, if_pos rfl, free, Option.getD_none]

/-- A task that waits for one resource asks for another, which is free: it waits on and holds. -/
theorem waiting_task_is_granted_another_resource :
    let p : Plan := { nests := [0, 0], tasks := [some 0, some 0] }
    ∃ k k', p.bootKernel.Steps (fun _ => False) k ∧
      k.chain (.waiting (.shared 0)) = [.user 1] ∧ k.holder (.shared 1) = none ∧
      Kernel.submit (.shared 1) (.user 1) k = .ok false k' ∧
      k'.chain (.waiting (.shared 0)) = [.user 1] ∧ k'.holder (.shared 1) = some (.user 1) := by
  intro p
  have ran : (Exec.after? (Machine.performAll 1 2 [.submit 0 0, .submit 0 1]) p.boot).map
      (fun m => (m.kernel.isBound (.user 1), m.kernel.chain (.waiting (.shared 0)),
        m.kernel.holder (.shared 1))) = some (true, [.user 1], none) := by decide +kernel
  obtain ⟨m, ran, seen⟩ := Option.map_eq_some_iff.mp ran
  simp only [Prod.mk.injEq] at seen
  obtain ⟨bound, waits, free⟩ := seen
  have steps := (Machine.walks_performAll 1 2 [.submit 0 0, .submit 0 1] p.boot).ok
    p.boot.unreserved (Exec.of_after ran)
  have reached : p.bootKernel.Steps (fun _ => False) m.kernel := steps.kernel
  obtain ⟨answer, k', answered, idle, -, refused⟩ :=
    refused_task_is_granted_a_free_resource p reached (.shared 1) bound
  have busy : answer = false := by
    rw [← Bool.not_eq_true, idle]
    intro nowhere
    exact nowhere (.waiting (.shared 0)) (waits ▸ List.mem_singleton_self _)
  subst busy
  obtain ⟨chains, -, -, -, granted⟩ := refused rfl
  exact ⟨m.kernel, k', reached, waits, free, answered, (chains _).trans waits, granted free⟩

/-- A task that sits in the main queue is refused a free resource, and holds it afterwards. -/
theorem refusal_changes_the_holder :
    ¬ ∀ (p : Plan) (k k' : Kernel) (n : NestId) (t : TaskId),
      p.bootKernel.Steps (fun _ => False) k → k.isBound t = true →
      Kernel.submit n t k = .ok false k' → k'.holder n = k.holder n := by
  intro always
  let p : Plan := { nests := [0], tasks := [some 0] }
  let k : Kernel := Exec.final (Kernel.add (.main 0) (.user 0)) p.bootKernel
  have reached : p.bootKernel.Steps (fun _ => False) k := .single (.add (.main 0) (.user 0))
  have bound : k.isBound (.user 0) = true := by decide +kernel
  have queued : k.isQueued (.user 0) = true := by decide +kernel
  obtain ⟨lists, holds⟩ := reached.holds (bootKernel_fresh p).holds
  obtain ⟨k', lists', answered, asked⟩ := holds.submit (.shared 0) bound
  rw [queued] at answered
  obtain ⟨-, -, holder⟩ := asked.of_queued holds queued
  have same := always p k k' _ _ reached bound answered
  rw [holder, if_pos rfl] at same
  exact absurd same (by decide +kernel)

end Kernel

end CoopKernel
