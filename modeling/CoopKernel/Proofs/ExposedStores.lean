import CoopKernel.Proofs.InterruptTransparency
import CoopKernel.Proofs.MachineRuns

/-!
# Stores with interrupts enabled

Links, flags of queued tasks, ends of queues, holders and handlers are stored to
inside critical sections only, so always with interrupts disabled. The worker of
a task is stored by itself: binding a task, starting a transfer, and going on to
the next buffer of a list store it with the flag as their caller left it.
-/

namespace CoopKernel

open Spi Exec

theorem Event.unexposed_of_plain {e : Event} (plain : e.isQueueing = false) :
    e.exposed? = none := by
  cases e with
  | exposed c => cases plain
  | _ => rfl

namespace Kernel

variable {α : Type}

/-- With interrupts disabled, but without the disable counted. -/
def masked (k : Kernel) : Kernel := { k with cpu := { k.cpu with enabled := false } }

def exposuresWith (c : Cell) (k : Kernel) : List Cell :=
  if k.cpu.enabled then c :: k.exposures else k.exposures

theorem exposures_putWorker (t : TaskId) (w : Worker) (k : Kernel) :
    (k.putWorker t w).exposures = k.exposuresWith (.worker t) := by
  change (k.expose (.worker t)).exposures = _
  rw [expose, exposuresWith]
  split <;> rfl

/-- What a section does is the same with the flag clear from the start. -/
theorem exposures_critical {body : Exec Kernel α} (calm : Obeys Calm (critical body)) (k : Kernel) :
    (final (critical body) k).exposures = k.exposures := by
  have same : (final (critical body) k).exposures = (final (critical body) k.masked).exposures := by
    have inside : k.masked.disable = k.disable := rfl
    rw [final, final, critical, critical, inside]
    cases body k.disable <;> rfl
  exact same.trans ((calm k.masked).sheltered rfl)

theorem exposures_enclosed {body : Kernel → α × Kernel}
    (calm : ∀ k : Kernel, k.Calm (k.enclosed body).2) (k : Kernel) :
    (k.enclosed body).2.exposures = k.exposures :=
  (show (k.enclosed body).2.exposures = (k.masked.enclosed body).2.exposures from rfl).trans
    ((calm k.masked).sheltered rfl)

theorem exposures_pop (q : QueueId) (k : Kernel) : (k.pop q).2.exposures = k.exposures :=
  exposures_enclosed (calm_pop q) k

theorem exposures_takeLowest (k : Kernel) : k.takeLowest.2.exposures = k.exposures := by
  rw [takeLowest]
  split <;> rfl

theorem exposures_add (q : QueueId) (t : TaskId) (k : Kernel) :
    (final (add q t) k).exposures = k.exposures := by
  rcases k.relinked_add q t with ⟨k', appended, events, added, relinked, queued⟩ | refused
  · rw [final_ok added]
    exact exposures_of_trace relinked.trace fun e mem => by rw [queued e mem]; rfl
  · rw [final_error refused]

theorem exposures_addOptional (q : QueueId) (t : Option TaskId) (k : Kernel) :
    (final (addOptional q t) k).exposures = k.exposures := by
  cases t with
  | none => rfl
  | some t => exact exposures_add q t k

theorem exposures_bindHandler (id : Nat) (script : Option Nat) (k : Kernel) :
    (final (bindHandler id script) k).exposures = k.exposures := by
  rw [final_bindHandler]
  split
  · exact exposures_enclosed (calm_enclosed _ (calm_putHandler id script)) k
  · rfl

theorem exposures_raise (id : Nat) (k : Kernel) :
    (final (raise id) k).exposures = k.exposures := by
  rw [final_raise]
  split <;> rfl

end Kernel

namespace Board

variable {b : Board} {bus i : Nat} {t : Transfer} {op : Operation}

section

variable {α : Type} {x : Exec Kernel α}

theorem exposures_onKernel (same : ∀ k : Kernel, (final x k).exposures = k.exposures) (b : Board) :
    (final (onKernel x) b).kernel.exposures = b.kernel.exposures := by
  rw [final_onKernel]
  exact same b.kernel

/-- The same with the answer dropped. -/
theorem exposures_dropped (same : ∀ k : Kernel, (final x k).exposures = k.exposures) (b : Board) :
    (final (do let _ ← onKernel x : Exec Board Unit) b).kernel.exposures =
      b.kernel.exposures := by
  rw [final_answer]
  exact exposures_onKernel same b

end

theorem exposures_schedulePoll (bus : Nat) (b : Board) :
    (final (schedulePoll bus) b).kernel.exposures = b.kernel.exposures := by
  rw [schedulePoll, final_get]
  exact exposures_dropped (Kernel.exposures_add _ _) b

theorem exposures_wakeHolder (bus : Nat) (b : Board) :
    (final (wakeHolder bus) b).kernel.exposures = b.kernel.exposures := by
  rw [wakeHolder, final_get]
  exact exposures_dropped (Kernel.exposures_addOptional _ _) b

/-- Priming a bus binds its poll task. -/
theorem exposures_prime (bus : Nat) (first : UInt8) (n : Nat) (b : Board) :
    (prime bus first n b).kernel.exposures = b.kernel.exposuresWith (.worker (.poll bus)) :=
  Kernel.exposures_putWorker (.poll bus) (.poller bus) b.kernel

theorem exposures_start (accepted : t.fault? = none) (bus : Nat) (b : Board) :
    (final (start bus t) b).kernel.exposures =
      b.kernel.exposuresWith (.worker (.poll bus)) := by
  rcases taken : (b.masters.get bus).accept b.memory t with ⟨first, n, m⟩
  rw [final, start_accepted accepted taken]
  exact (exposures_schedulePoll bus _).trans
    (exposures_prime bus first n { b with masters := b.masters.set bus m })

theorem Beside.exposuresWith {b' : Board} (h : Beside i b b') (c : Cell) :
    b'.kernel.exposuresWith c = b.kernel.exposuresWith c := by
  rw [Kernel.exposuresWith, h.flag, h.exposures, Kernel.exposuresWith]

def Operation.chip? : Operation → Option Nat
  | identifyChip i | awaitChip i | askStatus i | askId i | command i _ => some i
  | _ => none

theorem asks_run (of : op.chip? = some i) : Obeys (Asks i) op.run := by
  cases op <;> simp only [Operation.chip?, reduceCtorEq, Option.some.injEq] at of <;> subst of
  case identifyChip i => exact (asks_identifyChip i).answer _
  case awaitChip i => exact (asks_awaitChip i).answer _
  case askStatus i => exact asks_sendScratch i _
  case askId i => exact asks_sendScratch i _
  case command i c => exact asks_command i c

/-- On board `b` the operation stores the worker of a task. A poll task gets it with each
buffer of a transfer, and a chip may start one transfer in a call. -/
inductive Operation.Binds (b : Board) : Operation → TaskId → Prop where
  | task (t script : Nat) : Binds b (.bindWorker t script) (.user t)
  | start {bus : Nat} {t : Transfer} (accepted : t.fault? = none) :
      Binds b (.start bus t) (.poll bus)
  | reload {bus n : Nat} {first : UInt8} {m : Master} (phase : (b.masters.get bus).phase = .reload)
      (advanced : (b.masters.get bus).advance b.memory = (some (first, n), m)) :
      Binds b (.runPoller bus) (.poll bus)
  | chip {op : Operation} {i : Nat} {mid : Board} {t : Transfer} (of : op.chip? = some i)
      (beside : Beside i b mid) (accepted : t.fault? = none)
      (ended : final op.run b = final (Board.start (b.chip i).device.bus t) mid) :
      Binds b op (.poll (b.chip i).device.bus)

theorem exposures_binds {t : TaskId} (binds : op.Binds b t) :
    (final op.run b).kernel.exposures = b.kernel.exposuresWith (.worker t) := by
  cases binds with
  | task t script => exact Kernel.exposures_putWorker (.user t) (.script script) b.kernel
  | start accepted => exact exposures_start accepted _ b
  | @reload bus n first m phase advanced =>
    have ran := (runPoller_reload phase).trans (reload_loaded advanced)
    change (final (runPoller bus) b).kernel.exposures = _
    rw [final, ran]
    exact (exposures_schedulePoll bus _).trans
      (exposures_prime bus first n { b with masters := b.masters.set bus m })
  | chip of beside accepted ended =>
    rw [ended, exposures_start accepted, beside.exposuresWith]

theorem exposures_runPoller (unbound : ∀ t, ¬ (Operation.runPoller bus).Binds b t) :
    (final (runPoller bus) b).kernel.exposures = b.kernel.exposures := by
  rw [final]
  cases pollerRun bus b with
  | polling _ _ ran =>
    rw [ran]
    exact (exposures_schedulePoll bus _).trans (exposures_polled bus b)
  | polled _ _ ran =>
    rw [ran]
    exact (exposures_wakeHolder bus _).trans (exposures_polled bus b)
  | loaded phase advanced _ => exact absurd (.reload phase advanced) (unbound _)
  | @ended m _ _ ran =>
    rw [ran]
    exact exposures_wakeHolder bus (modifyMaster bus Master.finish { b with masters := _ })

/-- An operation that binds no task stores inside critical sections only. -/
theorem exposures_unbound (unbound : ∀ t, ¬ op.Binds b t) :
    (final op.run b).kernel.exposures = b.kernel.exposures := by
  cases of : op.chip? with
  | some i =>
    obtain ⟨mid, beside, ended | ⟨t, ended⟩⟩ := asks_run of b
    · rw [ended]
      exact beside.exposures
    · cases accepted : t.fault? with
      | none => exact absurd (.chip of beside accepted ended) (unbound _)
      | some cause =>
        rw [ended, final_error (start_refused accepted)]
        exact beside.exposures
  | none =>
    cases op with
    | add q t => exact exposures_dropped (Kernel.exposures_addOptional q t) b
    | pop q =>
      exact exposures_dropped (x := modifyGet (Kernel.pop q)) (Kernel.exposures_pop q) b
    | isEmpty q =>
      exact exposures_dropped (x := modifyGet (Kernel.isEmpty q))
        (Kernel.exposures_enclosed (Kernel.calm_isEmpty q)) b
    | count q =>
      exact exposures_dropped (x := modifyGet (Kernel.count q))
        (Kernel.exposures_enclosed (Kernel.calm_count q)) b
    | submit n t => exact exposures_dropped (Kernel.exposures_critical (Kernel.obeys_submit n t)) b
    | handOver n =>
      exact exposures_onKernel (Kernel.exposures_critical (Kernel.obeys_handOver n)) b
    | bindWorker t script => exact absurd (.task t script) (unbound _)
    | bindHandler id script => exact exposures_onKernel (Kernel.exposures_bindHandler id script) b
    | tryBindHandler id script =>
      refine exposures_dropped (fun k => ?_) b
      rw [Kernel.final_tryBindHandler]
      exact Kernel.exposures_bindHandler id (some script) k
    | raise id => exact exposures_onKernel (Kernel.exposures_raise id) b
    | start bus t =>
      cases accepted : t.fault? with
      | none => exact absurd (.start accepted) (unbound _)
      | some cause =>
        change (final (start bus t) b).kernel.exposures = _
        rw [final_error (start_refused accepted)]
    | request bus t =>
      exact exposures_dropped (Kernel.exposures_critical (Kernel.obeys_submit (.bus bus) t)) b
    | release bus =>
      exact exposures_onKernel (Kernel.exposures_critical (Kernel.obeys_handOver (.bus bus))) b
    | runPoller bus => exact exposures_runPoller unbound
    | select d => exact (beside_select 0 d b).exposures
    | deselect d => exact (beside_deselect 0 d b).exposures
    | print level message => exact (obeys_print 0 level message b).exposures
    | _ => cases of

end Board

namespace Machine

variable {m m' : Machine}

/-- The cells exposed on the way from one machine to the other are workers of tasks. -/
def ExposesWorkers (m m' : Machine) : Prop :=
  ∃ tasks : List TaskId, m'.kernel.exposures = tasks.map .worker ++ m.kernel.exposures

theorem ExposesWorkers.of_eq (same : m'.kernel.exposures = m.kernel.exposures) :
    m.ExposesWorkers m' := ⟨[], same⟩

theorem ExposesWorkers.trans {m'' : Machine} (h : m.ExposesWorkers m')
    (h' : m'.ExposesWorkers m'') : m.ExposesWorkers m'' := by
  obtain ⟨tasks, before⟩ := h
  obtain ⟨later, after⟩ := h'
  exact ⟨later ++ tasks, by rw [after, before, List.map_append, List.append_assoc]⟩

theorem exposesWorkers_operation (op : Board.Operation) (m : Machine) :
    m.ExposesWorkers { m with board := final op.run m.board } := by
  by_cases bound : ∃ t, op.Binds m.board t
  · obtain ⟨t, binds⟩ := bound
    have stored := Board.exposures_binds binds
    rw [Kernel.exposuresWith] at stored
    split at stored
    · exact ⟨[t], stored⟩
    · exact .of_eq stored
  · exact .of_eq (Board.exposures_unbound (not_exists.mp bound))

theorem Step.exposesWorkers {reserved : Nat → Prop} (step : m.Step reserved m') :
    m.ExposesWorkers m' := by
  cases step with
  | operation op common => exact exposesWorkers_operation op m
  | @around b same => exact .of_eq (congrArg Kernel.exposures same)
  | remark plain => exact .of_eq (Kernel.exposures_note (Event.unexposed_of_plain plain.2) _)
  | dispatch lowest bound => exact .of_eq (Kernel.exposures_takeLowest m.kernel)
  | @turn q t w quiet first worker => exact .of_eq (Kernel.exposures_pop q m.kernel)
  | _ => exact .of_eq rfl

theorem Halts.exposesWorkers {reserved : Nat → Prop} (halts : m.Halts reserved m') :
    m.ExposesWorkers m' := by
  obtain ⟨last, steps, ended⟩ := halts
  have before : m.ExposesWorkers last := by
    clear ended
    induction steps with
    | refl => exact .of_eq rfl
    | tail _ step ih => exact ih.trans step.exposesWorkers
  -- A dispatch that failed has taken something out, and has started nothing.
  rcases ended with rfl | ⟨k, ⟨id, -, -, rfl⟩ | ⟨q, t, -, -, rfl⟩, rfl⟩
  · exact before
  · exact before.trans (.of_eq (Kernel.exposures_takeLowest last.kernel))
  · exact before.trans (.of_eq (Kernel.exposures_pop q last.kernel))

end Machine

/-- An operation makes no store with interrupts enabled exactly if it is called with them disabled
or binds no task. One that binds a task stores that task's worker with the flag that it was called
with, and nothing else with the flag set. Nor is any other cell in a whole run. -/
theorem only_workers_are_stored_with_interrupts_enabled (op : Board.Operation) (b : Board)
    (rounds depth : Nat) (actions : List Action) (m : Machine) :
    ((final op.run b).kernel.exposures = b.kernel.exposures ↔
      b.kernel.cpu.enabled = false ∨ ∀ t, ¬ op.Binds b t) ∧
    (∀ t, op.Binds b t →
      (final op.run b).kernel.exposures =
        if b.kernel.cpu.enabled then .worker t :: b.kernel.exposures else b.kernel.exposures) ∧
    ∃ tasks : List TaskId,
      (final (Machine.performAll rounds depth actions) m).kernel.exposures =
        tasks.map .worker ++ m.kernel.exposures := by
  refine ⟨⟨fun same => ?_, fun covered => ?_⟩, fun t => Board.exposures_binds,
    ((Machine.walks_performAll rounds depth actions m).final m.unreserved).exposesWorkers⟩
  · by_contra exposed
    obtain ⟨on, bound⟩ := not_or.mp exposed
    obtain ⟨t, binds⟩ := not_forall_not.mp bound
    have stored := Board.exposures_binds binds
    rw [same, Kernel.exposuresWith, if_pos (by simpa using on)] at stored
    exact List.cons_ne_self _ _ stored.symm
  · obtain off | unbound := covered
    · exact (Board.obeys_run op b).sheltered off
    · exact Board.exposures_unbound unbound

/-- A transfer that is started with interrupts enabled, and a queue that is read. -/
theorem poll_task_is_bound_with_interrupts_enabled :
    let b := ({ buses := [{}] } : Plan).bootBoard
    (final (Board.start 0 (.write (.bytes [0x55]))) b).kernel.exposures = [.worker (.poll 0)] ∧
    (final (Board.Operation.isEmpty (.main 0)).run b).kernel.exposures = [] := by
  intro b
  constructor
  · obtain ⟨-, bound, -⟩ := only_workers_are_stored_with_interrupts_enabled
      (.start 0 (.write (.bytes [0x55]))) b 0 0 [] {}
    exact bound (.poll 0) (.start rfl)
  · obtain ⟨covered, -⟩ := only_workers_are_stored_with_interrupts_enabled
      (.isEmpty (.main 0)) b 0 0 [] {}
    refine covered.mpr (Or.inr fun t binds => ?_)
    cases binds with
    | chip of => cases of

/-- A task that is bound with interrupts enabled. -/
theorem worker_is_stored_unguarded :
    ¬ ∀ (p : Plan) (rounds depth : Nat) (actions : List Action),
      (final (Machine.performAll rounds depth actions) p.boot).kernel.exposures = [] := by
  intro covered
  have exposed : (final (Machine.performAll 1 1 [.bindWorker 0 0])
      ({ tasks := [none] } : Plan).boot).kernel.exposures = [.worker (.user 0)] := by
    decide +kernel
  rw [covered] at exposed
  cases exposed

end CoopKernel
