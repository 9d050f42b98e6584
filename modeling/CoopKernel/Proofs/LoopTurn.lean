import CoopKernel.Proofs.LoopHistory
import CoopKernel.Proofs.SoftPolls

/-!
# One turn of the main loop

A turn serves soft interrupts until none is pending. Then it runs the first task
of its queue, or sleeps when there is none. What handlers and workers do is left
open: they may feed the queue, raise ids and switch interrupts as they like, and
the turn goes by what they leave. From the last look at the pending bits to the
sleep interrupts stay disabled, so that none can slip in between.
-/

namespace CoopKernel

namespace Kernel

variable {k k' : Kernel} {q : QueueId} {t : TaskId} {w : Worker}

theorem pop_fst : (k.pop q).1 = (k.queues.get q).head := unlink_fst

theorem relinked_pop (first : (k.queues.get q).head = some t) :
    k.Relinked (k.pop q).2 [.dequeued q t] :=
  (relinked_unlink (k := k.disable) rfl first).section

theorem worker_pop (first : (k.queues.get q).head = some t) (u : TaskId) :
    ((k.pop q).2.tasks.get u).worker = (k.tasks.get u).worker :=
  (relinked_pop first).worker u

theorem isQueued_pop (first : (k.queues.get q).head = some t) : (k.pop q).2.isQueued t = false := by
  change ((k.disable.unlink q).2.tasks.get t).queued = false
  simp [tasks_unlink (k := k.disable) rfl first]

/-- The kernels that taking the first task out of a queue goes through, with the section around
it. -/
def popping (q : QueueId) (k : Kernel) : List Kernel :=
  [k, k.disable, (k.disable.unlink q).2, (k.pop q).2]

structure Lull (q : QueueId) (k : Kernel) : Prop where
  masked : k.cpu.enabled = false
  calm : k.soft.pending = 0
  empty : (k.queues.get q).head = none

theorem Lull.pop (lull : k.Lull q) : (k.pop q).2 = k.disable := by
  have head : (k.disable.queues.get q).head = none := lull.empty
  simp [Kernel.pop, enclosed, unlink, head, restore, Cpu.restore, lull.masked]

/-- A lull lasts until the section is left. -/
theorem Lull.popping (lull : k.Lull q) : ∀ k' ∈ k.popping q, k'.Lull q := by
  have within : k.disable.Lull q := ⟨rfl, lull.calm, lull.empty⟩
  have nothing : (k.disable.unlink q).2 = k.disable := by
    rw [unlink, within.empty]
  simp only [Kernel.popping, nothing, lull.pop]
  simpa using ⟨lull, within⟩

/-- How a worker finds the kernel when its task was taken out of a queue: interrupts are enabled,
and its task can be queued again. -/
structure Starts (q : QueueId) (t : TaskId) (w : Worker) (k k' : Kernel) : Prop where
  enabled : k'.cpu.enabled = true
  sleeps : k'.cpu.sleeps = k.cpu.sleeps
  unqueued : k'.isQueued t = false
  soft : k'.soft = k.soft
  trace : k'.trace = [.taskRan t w true false, .dequeued q t] ++ k.trace

theorem starts_turned (first : (k.queues.get q).head = some t) :
    k.Starts q t w (k.turned q t w) where
  enabled := rfl
  sleeps := (relinked_pop first).sleeps
  unqueued := isQueued_pop first
  soft := (relinked_pop first).soft
  trace := by
    rw [turned, isQueued_pop first]
    exact congrArg (_ :: ·) (relinked_pop first).trace

end Kernel

namespace Machine

open Exec

variable {perform : List Action → Exec Machine Unit}
variable {m m' served : Machine} {q : QueueId} {rounds : Nat} {ids : List Nat}
variable {outcome : Turn} {e : Stop}

/-- The end of a turn that is done with soft interrupts. Its outcome says what it did: it ran the
first task, and leaves what the worker left, or it slept. -/
inductive Closes (perform : List Action → Exec Machine Unit) (q : QueueId) (m : Machine) :
    Turn → Machine → Prop where
  | ran {t : TaskId} {w : Worker} {m' : Machine}
    (first : (m.kernel.queues.get q).head = some t)
    (worker : (m.kernel.tasks.get t).worker = some w)
    (done : runWorker perform w (m.modifyKernel (Kernel.turned q t w)) = .ok () m') :
    Closes perform q m .ran m'
  | slept (empty : (m.kernel.queues.get q).head = none) :
    Closes perform q m .idle (m.modifyKernel fun k => (k.pop q).2.sleep)

/-- How a turn is stopped that is done with soft interrupts: the first task has no worker, or its
worker is stopped itself. -/
inductive Stalls (perform : List Action → Exec Machine Unit) (q : QueueId) (m : Machine) :
    Stop → Machine → Prop where
  | workerless {t : TaskId} (first : (m.kernel.queues.get q).head = some t)
    (worker : (m.kernel.tasks.get t).worker = none) :
    Stalls perform q m (.fault .ranWithoutWorker) (m.modifyKernel fun k => (k.pop q).2.enable)
  | stopped {t : TaskId} {w : Worker} {e : Stop} {m' : Machine}
    (first : (m.kernel.queues.get q).head = some t)
    (worker : (m.kernel.tasks.get t).worker = some w)
    (ran : runWorker perform w (m.modifyKernel (Kernel.turned q t w)) = .error e m') :
    Stalls perform q m e m'

variable (perform) in
def closing (q : QueueId) : Exec Machine Turn :=
  onKernel (modifyGet (Kernel.pop q)) >>= runTaken perform

theorem closing_some {t : TaskId} {w : Worker} (first : (m.kernel.queues.get q).head = some t)
    (worker : (m.kernel.tasks.get t).worker = some w) :
    closing perform q m = (runWorker perform w >>= fun _ => pure Turn.ran)
      (m.modifyKernel (Kernel.turned q t w)) :=
  taken_some (Kernel.pop_fst.trans first) ((Kernel.worker_pop first t).trans worker)

theorem closing_of_closes (h : Closes perform q m outcome m') :
    closing perform q m = .ok outcome m' := by
  cases h with
  | ran first worker done =>
    rw [closing_some first worker, bind_ok done]
    rfl
  | slept empty => exact taken_none (Kernel.pop_fst.trans empty)

theorem closing_of_stalls (h : Stalls perform q m e m') : closing perform q m = .error e m' := by
  cases h with
  | workerless first worker =>
    exact taken_workerless (Kernel.pop_fst.trans first) ((Kernel.worker_pop first _).trans worker)
  | stopped first worker ran => rw [closing_some first worker, bind_error ran]

variable (perform) in
theorem closes_or_stalls (q : QueueId) (m : Machine) :
    (∃ outcome m', Closes perform q m outcome m') ∨ ∃ e m', Stalls perform q m e m' := by
  cases first : (m.kernel.queues.get q).head with
  | none => exact Or.inl ⟨_, _, .slept first⟩
  | some t =>
    cases worker : (m.kernel.tasks.get t).worker with
    | none => exact Or.inr ⟨_, _, .workerless first worker⟩
    | some w =>
      cases ran : runWorker perform w (m.modifyKernel (Kernel.turned q t w)) with
      | ok _ m₁ => exact Or.inl ⟨_, _, .ran first worker ran⟩
      | error e m₁ => exact Or.inr ⟨_, _, .stopped first worker ran⟩

theorem closing_ok_iff :
    closing perform q m = .ok outcome m' ↔ Closes perform q m outcome m' := by
  refine ⟨fun ran => ?_, closing_of_closes⟩
  obtain ⟨_, _, closes⟩ | ⟨_, _, stalls⟩ := closes_or_stalls perform q m
  · rw [closing_of_closes closes] at ran
    cases ran
    exact closes
  · rw [closing_of_stalls stalls] at ran
    cases ran

theorem closing_error_iff : closing perform q m = .error e m' ↔ Stalls perform q m e m' := by
  refine ⟨fun ran => ?_, closing_of_stalls⟩
  obtain ⟨_, _, closes⟩ | ⟨_, _, stalls⟩ := closes_or_stalls perform q m
  · rw [closing_of_closes closes] at ran
    cases ran
  · rw [closing_of_stalls stalls] at ran
    cases ran
    exact stalls

theorem turn_eq : turn perform rounds q m =
    (pollSoft perform rounds >>= fun _ => closing perform q) (m.modifyKernel Kernel.disable) := rfl

/-- The dispatches of the turn itself, up to the one look that finds nothing pending. -/
def Cleared (perform : List Action → Exec Machine Unit) (m : Machine) (ids : List Nat)
    (served : Machine) : Prop :=
  Serves perform (m.modifyKernel Kernel.disable) ids served ∧ served.kernel.soft.pending = 0

theorem turn_ok_iff : turn perform rounds q m = .ok outcome m' ↔ ∃ ids served,
    Cleared perform m ids served ∧ ids.length < rounds ∧ Closes perform q served outcome m' := by
  rw [turn_eq]
  constructor
  · intro ran
    cases polled : pollSoft perform rounds (m.modifyKernel Kernel.disable) with
    | error e m₁ =>
      rw [bind_error polled] at ran
      cases ran
    | ok n served =>
      rw [bind_ok polled] at ran
      obtain ⟨-, ids, serves, calm, rfl, few⟩ := pollSoft_ok_iff.mp polled
      exact ⟨ids, served, ⟨serves, calm⟩, few, closing_ok_iff.mp ran⟩
  · rintro ⟨ids, served, ⟨serves, calm⟩, few, closes⟩
    rw [bind_ok (pollSoft_ok_iff.mpr ⟨rfl, ids, serves, calm, rfl, few⟩)]
    exact closing_ok_iff.mpr closes

/-- A turn is stopped while it serves soft interrupts or, with those served, by the task that it
runs. -/
theorem turn_error_iff : turn perform rounds q m = .error e m' ↔
    (∃ ids last, Serves perform (m.modifyKernel Kernel.disable) ids last ∧ ids.length ≤ rounds ∧
      Breaks perform last (rounds - ids.length) e m') ∨
    ∃ ids served, Cleared perform m ids served ∧ ids.length < rounds ∧
      Stalls perform q served e m' := by
  rw [turn_eq]
  constructor
  · intro ran
    cases polled : pollSoft perform rounds (m.modifyKernel Kernel.disable) with
    | error e m₁ =>
      rw [bind_error polled] at ran
      cases ran
      obtain ⟨on, -⟩ | ⟨-, breaks⟩ := pollSoft_error_iff.mp polled
      · cases on
      · exact Or.inl breaks
    | ok n served =>
      rw [bind_ok polled] at ran
      obtain ⟨-, ids, serves, calm, rfl, few⟩ := pollSoft_ok_iff.mp polled
      exact Or.inr ⟨ids, served, ⟨serves, calm⟩, few, closing_error_iff.mp ran⟩
  · rintro (breaks | ⟨ids, served, ⟨serves, calm⟩, few, stalls⟩)
    · rw [bind_error (pollSoft_error_iff.mpr (Or.inr ⟨rfl, breaks⟩))]
    · rw [bind_ok (pollSoft_ok_iff.mpr ⟨rfl, ids, serves, calm, rfl, few⟩)]
      exact closing_error_iff.mpr stalls

/-- Where a turn stands that is done with soft interrupts. It sleeps, once, if and only if its queue
is empty, with a lull up to the sleep. Otherwise it runs the first task, with interrupts enabled,
and sleeps not at all. -/
structure Settled (perform : List Action → Exec Machine Unit) (q : QueueId) (m : Machine) :
    Prop where
  masked : m.kernel.cpu.enabled = false
  idle_iff : ∀ outcome m', Closes perform q m outcome m' →
    (outcome = .idle ↔ (m.kernel.queues.get q).head = none)
  lull : (m.kernel.queues.get q).head = none → ∀ k ∈ m.kernel.popping q, k.Lull q
  slept : ∀ m', Closes perform q m .idle m' → m'.kernel.cpu.enabled = true ∧
    m'.kernel.cpu.sleeps = m.kernel.cpu.sleeps + 1 ∧ m'.kernel.trace = .slept :: m.kernel.trace
  started : ∀ t w, (m.kernel.queues.get q).head = some t →
    m.kernel.Starts q t w (m.kernel.turned q t w)
  left : ∀ m', Closes perform q m .ran m' → ∃ t w, (m.kernel.queues.get q).head = some t ∧
    (m.kernel.tasks.get t).worker = some w ∧
    runWorker perform w (m.modifyKernel (Kernel.turned q t w)) = .ok () m'

/-- Nothing is pending, so the turn is down to its queue. -/
theorem Cleared.settled (h : Cleared perform m ids served) : Settled perform q served := by
  obtain ⟨serves, calm⟩ := h
  have masked : served.kernel.cpu.enabled = false := serves.disabled rfl
  have lull (empty : (served.kernel.queues.get q).head = none) : served.kernel.Lull q :=
    ⟨masked, calm, empty⟩
  constructor
  case masked => exact masked
  case idle_iff =>
    rintro _ _ (⟨first, -, -⟩ | empty)
    · simp [first]
    · simp [empty]
  case lull => exact fun empty => (lull empty).popping
  case slept =>
    rintro _ (_ | empty)
    change (served.kernel.pop q).2.sleep.cpu.enabled = true ∧
      (served.kernel.pop q).2.sleep.cpu.sleeps = _ ∧ (served.kernel.pop q).2.sleep.trace = _
    rw [(lull empty).pop]
    exact ⟨rfl, rfl, rfl⟩
  case started => exact fun t w first => Kernel.starts_turned first
  case left =>
    rintro m' (⟨first, worker, done⟩ | _)
    exact ⟨_, _, first, worker, done⟩

/-- Scripts keep the queues in order, so the first task is the head of the chain of tasks that
wait, and it has a worker. -/
theorem Cleared.in_order {depth : Nat} {lists : QueueId → List TaskId}
    (holds : m.kernel.Holds lists) (h : Cleared (performAll rounds depth) m ids served) :
    ∃ lists', served.kernel.Holds lists' ∧
      (served.kernel.queues.get q).head = (served.kernel.chain q).head? ∧
      ∀ t, (served.kernel.queues.get q).head = some t → served.kernel.isBound t = true := by
  have polled : pollSoft (performAll rounds depth) (ids.length + 1)
      (m.modifyKernel Kernel.disable) = .ok ids.length served :=
    pollSoft_ok_iff.mpr ⟨rfl, ids, h.1, h.2, rfl, Nat.lt_succ_self _⟩
  have walks : Walks (fun _ => False) (pollSoft (performAll rounds depth) (ids.length + 1)) :=
    walks_pollSoft (follows_performAll rounds depth) (ids.length + 1)
  have steps := (walks _).ok (unreserved _) polled
  obtain ⟨lists', holds'⟩ := steps.kernel.holds holds.disable
  refine ⟨lists', holds', ?_, fun t first => ?_⟩
  · rw [holds'.chain, holds'.head]
  · have mem : t ∈ lists' q := List.mem_of_mem_head? ((holds'.head q).symm.trans first)
    exact holds'.bound t (holds'.queued mem)

/-- Whatever handlers and workers do, a turn serves soft interrupts until none is pending, those
among them that handlers raise, and then runs the first task that they leave in its queue, with
interrupts enabled, or sleeps once, with interrupts disabled since nothing was found pending or
waiting. It is stopped where a dispatch is stopped and nowhere else. -/
theorem turn_clears_and_then_runs_or_sleeps (perform : List Action → Exec Machine Unit)
    (rounds : Nat) (q : QueueId) (m : Machine) :
    (∀ outcome m', turn perform rounds q m = .ok outcome m' ↔ ∃ ids served,
      Cleared perform m ids served ∧ ids.length < rounds ∧ Closes perform q served outcome m') ∧
    (∀ e m', turn perform rounds q m = .error e m' ↔
      (∃ ids last, Serves perform (m.modifyKernel Kernel.disable) ids last ∧
        ids.length ≤ rounds ∧ Breaks perform last (rounds - ids.length) e m') ∨
      ∃ ids served, Cleared perform m ids served ∧ ids.length < rounds ∧
        Stalls perform q served e m') ∧
    (∀ ids served, Cleared perform m ids served → Settled perform q served) ∧
    ∀ depth lists, m.kernel.Holds lists → ∀ ids served,
      Cleared (performAll rounds depth) m ids served → ∃ lists', served.kernel.Holds lists' ∧
        (served.kernel.queues.get q).head = (served.kernel.chain q).head? ∧
        ∀ t, (served.kernel.queues.get q).head = some t → served.kernel.isBound t = true :=
  ⟨fun _ _ => turn_ok_iff, fun _ _ => turn_error_iff, fun _ _ cleared => cleared.settled,
    fun _ _ holds _ _ cleared => cleared.in_order holds⟩

/-- A handler raises another id, whose handler feeds the empty queue: the turn that serves them runs
the task, and the next one sleeps. -/
theorem handlers_feed_their_turn :
    let p : Plan := { slots := 2, tasks := [some 2], scripts := #[Script.ofSteps #[[.raise 1]],
      Script.ofSteps #[[.add 0 (some 0)]], Script.ofSteps #[[]]] }
    let perform := performAll 9 5
    let actions : List Action := [.bindHandler 0 0, .bindHandler 1 1, .raise 0]
    let m := final (perform actions) p.boot
    (m.kernel.queues.get (.main 0)).head = none ∧
    ∃ ids served m₁, Cleared perform m ids served ∧ Settled perform (.main 0) served ∧
      (served.kernel.queues.get (.main 0)).head = (served.kernel.chain (.main 0)).head? ∧
      Closes perform (.main 0) served .ran m₁ ∧
      ∃ ids served m₂, Cleared perform m₁ ids served ∧ Settled perform (.main 0) served ∧
        Closes perform (.main 0) served .idle m₂ := by
  intro p perform actions m
  obtain ⟨lists, holds⟩ : ∃ lists, m.kernel.Holds lists := by
    obtain ⟨m', ran⟩ := Option.isSome_iff_exists.mp
      (by decide +kernel : (after? (perform actions) p.boot).isSome = true)
    have same : m = m' := final_ok (of_after ran)
    have steps := (walks_performAll 9 5 actions p.boot).ok p.boot.unreserved (of_after ran)
    rw [same]
    exact steps.kernel.holds (Kernel.bootKernel_fresh p).holds
  have twice : ((answering? .ran (turn perform 9 (.main 0)) m).bind
      (answering? .idle (turn perform 9 (.main 0)))).isSome = true := by decide +kernel
  obtain ⟨m₂, seen⟩ := Option.isSome_iff_exists.mp twice
  obtain ⟨m₁, first, second⟩ := Option.bind_eq_some_iff.mp seen
  obtain ⟨returns, -, settled, ordered⟩ :=
    turn_clears_and_then_runs_or_sleeps perform 9 (.main 0) m
  obtain ⟨ids, served, cleared, -, closes⟩ := (returns _ _).mp (of_answering first)
  obtain ⟨-, -, head, -⟩ := ordered 5 lists holds ids served cleared
  obtain ⟨returns', -, settled', -⟩ :=
    turn_clears_and_then_runs_or_sleeps perform 9 (.main 0) m₁
  obtain ⟨ids', served', cleared', -, closes'⟩ := (returns' _ _).mp (of_answering second)
  refine ⟨by decide +kernel, ids, served, m₁, cleared, settled _ _ cleared, head, closes, ?_⟩
  exact ⟨ids', served', m₂, cleared', settled' _ _ cleared', closes'⟩

end Machine

end CoopKernel
