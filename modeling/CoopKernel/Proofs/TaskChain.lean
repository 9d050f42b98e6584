import CoopKernel.Kernel.Queue
import Mathlib.Data.List.Nodup
import Mathlib.Data.List.Perm.Subperm
import Mathlib.Data.List.Range
import Mathlib.Logic.Function.Basic

/-!
# Chains of tasks

A queue is read off the tasks' own links, one cell a task for all queues. The
segment below says which tasks a walk meets between two links. It changes only
when a link of one of those tasks does, which is what keeps the queues apart.
-/

namespace CoopKernel.Kernel

/-- Following links from `start` meets these tasks and then stands at `stop`. -/
def Segment (tasks : Bank TaskId Task) (stop : Option TaskId) : Option TaskId → List TaskId → Prop
  | start, [] => start = stop
  | start, t :: rest => start = some t ∧ Segment tasks stop (tasks.get t).next rest

variable {tasks tasks' : Bank TaskId Task} {start stop : Option TaskId} {ts : List TaskId}

theorem segment_congr (h : Segment tasks stop start ts)
    (same : ∀ t ∈ ts, (tasks'.get t).next = (tasks.get t).next) :
    Segment tasks' stop start ts := by
  induction ts generalizing start with
  | nil => exact h
  | cons t rest ih =>
    obtain ⟨hs, hrest⟩ := h
    refine ⟨hs, ?_⟩
    rw [same t List.mem_cons_self]
    exact ih hrest fun u hu => same u (List.mem_cons_of_mem t hu)

theorem segment_snoc {last : TaskId} :
    Segment tasks stop start (ts ++ [last]) ↔
      Segment tasks (some last) start ts ∧ (tasks.get last).next = stop := by
  induction ts generalizing start with
  | nil => simp [Segment]
  | cons t rest ih => simp only [List.cons_append, Segment, ih, and_assoc]

theorem segment_start (h : Segment tasks none start ts) : start = ts.head? := by
  cases ts with
  | nil => exact h
  | cons t rest => exact h.1

/-- Appending a task writes the last link and no other. -/
theorem segment_join {t : TaskId} (h : Segment tasks none start ts) (nodup : ts.Nodup)
    (hne : ts ≠ []) (hlast : ∀ last, ts.getLast? = some last → (tasks'.get last).next = some t)
    (hend : (tasks'.get t).next = none)
    (same : ∀ u ∈ ts, ts.getLast? ≠ some u → (tasks'.get u).next = (tasks.get u).next) :
    Segment tasks' none start (ts ++ [t]) := by
  obtain ⟨init, last, rfl⟩ := (List.eq_nil_or_concat' ts).resolve_left hne
  have hl : (init ++ [last]).getLast? = some last := by simp
  have hout : last ∉ init := by
    intro hm
    exact (List.nodup_append.mp nodup).2.2 last hm last (List.mem_singleton_self last) rfl
  have hinit := (segment_snoc.mp h).1
  refine segment_snoc.mpr ⟨segment_snoc.mpr ⟨?_, hlast last hl⟩, hend⟩
  refine segment_congr hinit fun u hu => same u (by simp [hu]) ?_
  rw [hl]
  intro he
  exact hout (Option.some.inj he ▸ hu)

theorem segment_walk (h : Segment tasks none start ts) {bound : Nat} (enough : ts.length ≤ bound) :
    walk tasks bound start = ts := by
  induction ts generalizing start bound with
  | nil =>
    rw [show start = none from h]
    cases bound <;> rfl
  | cons t rest ih =>
    obtain ⟨rfl, hrest⟩ := h
    cases bound with
    | zero => simp at enough
    | succ bound =>
      rw [walk, ih hrest (by simpa using enough)]

/-- Distinct tasks with small numbers are few. -/
theorem length_le_of_numbers {n : Nat} (nodup : ts.Nodup)
    (small : ∀ t ∈ ts, Numbered.number t < n) : ts.length ≤ n := by
  have distinct : (ts.map Numbered.number).Nodup :=
    nodup.map_on fun a _ b _ h => Numbered.number_inj a b h
  have within : ts.map Numbered.number ⊆ List.range n := by
    intro m hm
    obtain ⟨t, ht, rfl⟩ := List.mem_map.mp hm
    exact List.mem_range.mpr (small t ht)
  simpa using (List.Nodup.subperm distinct within).length_le

end CoopKernel.Kernel
