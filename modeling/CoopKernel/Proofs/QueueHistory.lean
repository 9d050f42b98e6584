import CoopKernel.Machine.Boot
import CoopKernel.Proofs.QueueOperations

/-!
# Histories of queue operations

Callers add, take out, bind workers and ask, in any order and on any number of
queues and tasks. A plain model keeps one list a queue and knows who has a
worker; every history gets the model's answers and leaves the model's lists. A
refused operation is part of a history, since it changes nothing.
-/

namespace CoopKernel

inductive QueueOp where
  | add (q : QueueId) (t : Option TaskId)
  | pop (q : QueueId)
  | bind (t : TaskId) (w : Worker)
  | count (q : QueueId)
  | isEmpty (q : QueueId)
deriving DecidableEq, Repr

structure QueueModel where
  lists : QueueId → List TaskId
  bound : TaskId → Bool

namespace QueueOp

abbrev Answer := Except Stop Reply

def run : QueueOp → Kernel → Answer × Kernel
  | add q t, k => match k.addOptional q t with
    | .ok appended k' => (.ok (.flag appended), k')
    | .error stop k' => (.error stop, k')
  | pop q, k => let (t, k') := k.pop q; (.ok ((t.map Reply.task).getD .nothing), k')
  | bind t w, k => (.ok .nothing, k.putWorker t w)
  | count q, k => let (n, k') := k.count q; (.ok (.count n), k')
  | isEmpty q, k => let (b, k') := k.isEmpty q; (.ok (.flag b), k')

noncomputable section

local instance (P : Prop) : Decidable P := Classical.propDecidable P

def spec : QueueOp → QueueModel → Answer × QueueModel
  | add _ none, m => (.ok (.flag false), m)
  | add q (some t), m =>
    if m.bound t = false then (.error (.fault .queuedWithoutWorker), m)
    else if ∃ r, t ∈ m.lists r then (.ok (.flag false), m)
    else (.ok (.flag true), { m with lists := Function.update m.lists q (m.lists q ++ [t]) })
  | pop q, m => match m.lists q with
    | [] => (.ok .nothing, m)
    | t :: rest => (.ok (.task t), { m with lists := Function.update m.lists q rest })
  | bind t _, m => (.ok .nothing, { m with bound := Function.update m.bound t true })
  | count q, m => (.ok (.count (m.lists q).length), m)
  | isEmpty q, m => (.ok (.flag (m.lists q).isEmpty), m)

end

def runAll {σ : Type} (step : QueueOp → σ → Answer × σ) : List QueueOp → σ → List Answer × σ
  | [], s => ([], s)
  | op :: ops, s =>
    let (answer, s') := step op s
    let (answers, s'') := runAll step ops s'
    (answer :: answers, s'')

end QueueOp

namespace Kernel

structure Agrees (k : Kernel) (m : QueueModel) : Prop where
  holds : k.Holds m.lists
  bound : ∀ t, k.isBound t = m.bound t

/-- No store to a link, a flag, a head or a tail was made with interrupts enabled in between. -/
def Sheltered (k k' : Kernel) : Prop :=
  ∀ c, Event.exposed c ∈ k'.trace → Event.exposed c ∈ k.trace ∨ ∃ t, c = .worker t

variable {k k' k'' : Kernel} {m : QueueModel}

theorem Sheltered.trans (h : k.Sheltered k') (h' : k'.Sheltered k'') : k.Sheltered k'' := by
  intro c hc
  rcases h' c hc with old | worker
  · exact h c old
  · exact Or.inr worker

theorem Relinked.sheltered {events : List Event} (h : k.Relinked k' events)
    (quiet : ∀ c, Event.exposed c ∉ events) : k.Sheltered k' := by
  intro c hc
  rw [h.trace] at hc
  exact Or.inl ((List.mem_append.mp hc).resolve_left (quiet c))

theorem sheltered_putWorker (t : TaskId) (w : Worker) : k.Sheltered (k.putWorker t w) := by
  intro c hc
  have trace : (k.putWorker t w).trace = (k.expose (.worker t)).trace := rfl
  rw [trace, expose] at hc
  split at hc
  · rcases List.mem_cons.mp hc with he | old
    · exact Or.inr ⟨t, Event.exposed.inj he⟩
    · exact Or.inl old
  · exact Or.inl hc

theorem Agrees.relinked {events : List Event} (h : k.Agrees m) (g : k.Relinked k' events)
    {lists : QueueId → List TaskId} (holds : k'.Holds lists) :
    k'.Agrees { m with lists } :=
  ⟨holds, fun t => (g.isBound t).trans (h.bound t)⟩

/-- One operation: the same answer, and kernel and model still agree. -/
theorem Agrees.step (h : k.Agrees m) (op : QueueOp) :
    (op.run k).1 = (op.spec m).1 ∧ (op.run k).2.Agrees (op.spec m).2 ∧
      k.Sheltered (op.run k).2 := by
  cases op with
  | add q t =>
    cases t with
    | none => exact ⟨rfl, h, Relinked.refl.sheltered (by simp)⟩
    | some t =>
      by_cases hb : m.bound t = false
      · have refused := add_unbound (k := k) q ((h.bound t).trans hb)
        simp only [QueueOp.run, addOptional, refused, QueueOp.spec, if_pos hb]
        exact ⟨trivial, h, Relinked.refl.sheltered (by simp)⟩
      · have bound : k.isBound t = true := (h.bound t).trans (by simpa using hb)
        by_cases hq : ∃ r, t ∈ m.lists r
        · obtain ⟨k', added, holds, g⟩ := h.holds.add_queued q ((h.holds.queued_iff t).mpr hq)
          simp only [QueueOp.run, addOptional, added, QueueOp.spec, if_neg hb, if_pos hq]
          exact ⟨trivial, h.relinked g holds, g.sheltered (by simp)⟩
        · have idle : k.isQueued t = false := by
            rw [← Bool.not_eq_true, h.holds.queued_iff t]
            exact hq
          obtain ⟨k', added, holds, g⟩ := h.holds.add_idle q bound idle
          simp only [QueueOp.run, addOptional, added, QueueOp.spec, if_neg hb, if_neg hq]
          exact ⟨trivial, h.relinked g holds, g.sheltered (by simp)⟩
  | pop q =>
    cases hl : m.lists q with
    | nil =>
      obtain ⟨k', popped, holds, g⟩ := h.holds.pop_nil hl
      simp only [QueueOp.run, popped, QueueOp.spec, hl]
      exact ⟨rfl, h.relinked g holds, g.sheltered (by simp)⟩
    | cons t rest =>
      obtain ⟨k', popped, holds, g⟩ := h.holds.pop_cons hl
      simp only [QueueOp.run, popped, QueueOp.spec, hl]
      exact ⟨rfl, h.relinked g holds, g.sheltered (by simp)⟩
  | bind t w =>
    refine ⟨rfl, ⟨h.holds.putWorker t w, fun u => ?_⟩, sheltered_putWorker t w⟩
    change (k.putWorker t w).isBound u = Function.update m.bound t true u
    rw [isBound_putWorker, h.bound u]
    by_cases hu : u = t
    · subst hu
      simp
    · simp [hu]
  | count q =>
    obtain ⟨k', counted, holds, g⟩ := h.holds.count q
    simp only [QueueOp.run, counted, QueueOp.spec]
    exact ⟨trivial, h.relinked g holds, g.sheltered (by simp)⟩
  | isEmpty q =>
    obtain ⟨k', asked, holds, g⟩ := h.holds.isEmpty q
    simp only [QueueOp.run, asked, QueueOp.spec]
    exact ⟨trivial, h.relinked g holds, g.sheltered (by simp)⟩

theorem Agrees.runAll (h : k.Agrees m) (ops : List QueueOp) :
    (QueueOp.runAll QueueOp.run ops k).1 = (QueueOp.runAll QueueOp.spec ops m).1 ∧
      (QueueOp.runAll QueueOp.run ops k).2.Agrees (QueueOp.runAll QueueOp.spec ops m).2 ∧
      k.Sheltered (QueueOp.runAll QueueOp.run ops k).2 := by
  induction ops generalizing k m with
  | nil => exact ⟨rfl, h, Relinked.refl.sheltered (by simp)⟩
  | cons op ops ih =>
    obtain ⟨answer, agrees, sheltered⟩ := h.step op
    obtain ⟨answers, final, rest⟩ := ih agrees
    refine ⟨?_, final, sheltered.trans rest⟩
    simp only [QueueOp.runAll, answer, answers]

theorem spec_keeps_bound (op : QueueOp) {t : TaskId} (h : m.bound t = true) :
    (op.spec m).2.bound t = true := by
  cases op with
  | add q u =>
    cases u with
    | none => exact h
    | some u =>
      simp only [QueueOp.spec]
      split
      · exact h
      · split <;> exact h
  | pop q =>
    simp only [QueueOp.spec]
    split <;> exact h
  | bind u w =>
    change Function.update m.bound u true t = true
    by_cases hu : t = u
    · subst hu
      simp
    · simpa [Function.update_of_ne hu] using h
  | count q => exact h
  | isEmpty q => exact h

/-- A task that is popped has a worker. -/
theorem Agrees.bound_of_answer (h : k.Agrees m) (op : QueueOp) {t : TaskId}
    (popped : (op.spec m).1 = .ok (.task t)) : m.bound t = true := by
  cases op with
  | pop q =>
    cases hl : m.lists q with
    | nil => simp [QueueOp.spec, hl] at popped
    | cons u rest =>
      have hu : u = t := by simpa [QueueOp.spec, hl] using popped
      subst hu
      have queued := h.holds.queued (q := q) (t := u) (hl ▸ List.mem_cons_self)
      rw [← h.bound u]
      exact h.holds.bound u queued
  | add q u =>
    cases u with
    | none => simp [QueueOp.spec] at popped
    | some u =>
      simp only [QueueOp.spec] at popped
      split at popped
      · simp at popped
      · split at popped <;> simp at popped
  | bind u w => simp [QueueOp.spec] at popped
  | count q => simp [QueueOp.spec] at popped
  | isEmpty q => simp [QueueOp.spec] at popped

theorem Agrees.bound_of_answers (h : k.Agrees m) (ops : List QueueOp) {t : TaskId}
    (popped : m.bound t = true ∨ .ok (.task t) ∈ (QueueOp.runAll QueueOp.spec ops m).1) :
    (QueueOp.runAll QueueOp.spec ops m).2.bound t = true := by
  induction ops generalizing k m with
  | nil => simpa [QueueOp.runAll] using popped
  | cons op ops ih =>
    refine ih (h.step op).2.1 ?_
    rcases popped with bound | popped
    · exact Or.inl (spec_keeps_bound op bound)
    · rcases List.mem_cons.mp popped with now | later
      · exact Or.inl (spec_keeps_bound op (h.bound_of_answer op now.symm))
      · exact Or.inr later

structure Fresh (k : Kernel) : Prop where
  idle : ∀ t, k.isQueued t = false
  loose : ∀ t, (k.tasks.get t).next = none
  empty : ∀ q, k.queues.get q = {}

theorem Fresh.holds (h : k.Fresh) : k.Holds fun _ => [] where
  linked q := by rw [h.empty q]; rfl
  tail q := by rw [h.empty q]; rfl
  nodup _ := List.nodup_nil
  apart hq := absurd hq List.not_mem_nil
  queued_iff t := by simp [h.idle t]
  loose t _ := h.loose t
  bound t ht := by rw [h.idle t] at ht; cases ht
  stored t ht := by rw [h.idle t] at ht; cases ht

theorem bootKernel_fresh (p : Plan) : p.bootKernel.Fresh := by
  have tasks : ∀ t, (p.bootKernel.tasks.get t).queued = false ∧
      (p.bootKernel.tasks.get t).next = none := by
    intro t
    simp only [Plan.bootKernel]
    apply List.foldlRecOn (motive := fun b : Bank TaskId Task =>
      (b.get t).queued = false ∧ (b.get t).next = none)
    · simp [Bank.get]
    · intro b hb entry _
      rw [Bank.get_set]
      split
      · exact ⟨rfl, rfl⟩
      · exact hb
  exact ⟨fun t => (tasks t).1, fun t => (tasks t).2, fun q => by simp [Plan.bootKernel, Bank.get]⟩

theorem nests_boot (p : Plan) (n : NestId) :
    p.bootKernel.holder n = none ∧ ∃ i, p.bootKernel.feeds n = .main i := by
  simp only [Plan.bootKernel, Kernel.holder, Kernel.feeds]
  apply List.foldlRecOn (motive := fun b : Bank NestId Nest =>
    (b.get n).current = none ∧ ∃ i, (b.get n).feeds = .main i)
  · apply List.foldlRecOn (motive := fun b : Bank NestId Nest =>
      (b.get n).current = none ∧ ∃ i, (b.get n).feeds = .main i)
    · exact ⟨rfl, 0, rfl⟩
    · intro b hb entry _
      rw [Bank.get_set]
      split
      · exact ⟨rfl, _, rfl⟩
      · exact hb
  · intro b hb entry _
    rw [Bank.get_set]
    split
    · exact ⟨rfl, _, rfl⟩
    · exact hb

/-- Every history gets the answers of the list model and leaves its lists, which are disjoint
and hold exactly the queued tasks; a task once taken out never loses its worker. -/
theorem queues_are_disjoint_fifo_lists (fresh : k.Fresh) (ops : List QueueOp) :
    let done := QueueOp.runAll QueueOp.run ops k
    let model := QueueOp.runAll QueueOp.spec ops ⟨fun _ => [], k.isBound⟩
    done.1 = model.1 ∧ done.2.Holds model.2.lists ∧
      (∀ t, done.2.isBound t = model.2.bound t) ∧
      (∀ q, (done.2.queues.get q).head = none ↔ (done.2.queues.get q).tail = none) ∧
      (∀ t, .ok (.task t) ∈ done.1 → done.2.isBound t = true) ∧ k.Sheltered done.2 := by
  intro done model
  have start : k.Agrees ⟨fun _ => [], k.isBound⟩ := ⟨fresh.holds, fun _ => rfl⟩
  obtain ⟨answers, agrees, sheltered⟩ := start.runAll ops
  refine ⟨answers, agrees.holds, agrees.bound, ?_, ?_, sheltered⟩
  · intro q
    rw [agrees.holds.head q, agrees.holds.tail q]
    simp
  · intro t popped
    rw [agrees.bound t]
    exact start.bound_of_answers ops (Or.inr (answers ▸ popped))

/-- One task, two queues: the second queue is refused, and counts nothing. -/
theorem one_task_two_queues :
    let k := ({ queues := 2, tasks := [some 0] } : Plan).bootKernel
    let ops : List QueueOp := [.add (.main 0) (some (.user 0)), .add (.main 1) (some (.user 0)),
      .count (.main 1), .pop (.main 0), .isEmpty (.main 0)]
    k.Fresh ∧ [.ok (.flag true), .ok (.flag false), .ok (.count 0), .ok (.task (.user 0)),
        .ok (.flag true)] = (QueueOp.runAll QueueOp.spec ops ⟨fun _ => [], k.isBound⟩).1 := by
  intro k ops
  have ran : (QueueOp.runAll QueueOp.run ops k).1 = [.ok (.flag true), .ok (.flag false),
      .ok (.count 0), .ok (.task (.user 0)), .ok (.flag true)] := by decide +kernel
  exact ⟨bootKernel_fresh _, ran ▸ (queues_are_disjoint_fifo_lists (bootKernel_fresh _) ops).1⟩

end Kernel

end CoopKernel
