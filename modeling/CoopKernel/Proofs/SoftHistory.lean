import CoopKernel.Proofs.BusRun
import CoopKernel.Proofs.KernelSteps
import Mathlib.Data.Finset.Sort

/-!
# Histories of soft interrupts

The pending word is a set of ids. Raising an id puts it in the set, and a
dispatch takes out the least one and runs its handler with interrupts enabled.
Every run of a kernel has such a history, and from it follow the accounts: no id
is lost, none is served twice, and the lowest comes first.
-/

namespace CoopKernel

namespace SoftTable

variable {s : SoftTable} {id : Nat}

def ids (s : SoftTable) : Finset Nat := (Finset.range 32).filter fun i => s.pending.getLsbD i = true

theorem mem_ids : id ∈ s.ids ↔ s.pending.getLsbD id = true := by
  simp only [ids, Finset.mem_filter, Finset.mem_range, and_iff_right_iff_imp]
  exact BitVec.lt_of_getLsbD

theorem ids_mark (inside : id < s.slots) : (s.mark id).ids = insert id s.ids := by
  have bit : id < 32 := lt_of_lt_of_le inside s.slots_le
  ext i
  simp only [mem_ids, mark, Finset.mem_insert, BitVec.getLsbD_or, BitVec.getLsbD_twoPow]
  by_cases same : i = id
  · simp [same, bit]
  · simp [same, Ne.symm same]

theorem ids_clear : (s.clear id).ids = s.ids.erase id := by
  ext i
  simp only [mem_ids, clear, Finset.mem_erase, BitVec.getLsbD_and, BitVec.getLsbD_not,
    BitVec.getLsbD_twoPow]
  by_cases bit : i < 32
  · by_cases same : i = id
    · subst same
      simp [bit]
    · simp [same, Ne.symm same, bit]
  · have clear : s.pending.getLsbD i = false := BitVec.getLsbD_of_ge _ _ (Nat.le_of_not_lt bit)
    simp [clear]

theorem lowest_none : s.lowest? = none ↔ s.ids = ∅ := by
  rw [lowest?, List.find?_eq_none, ids, Finset.filter_eq_empty_iff]
  simp only [List.mem_range, Finset.mem_range]

theorem ids_eq_empty : s.ids = ∅ ↔ s.pending = 0 := by
  constructor
  · intro empty
    apply BitVec.eq_of_getLsbD_eq
    intro i _
    have clear : i ∉ s.ids := by simp [empty]
    rw [mem_ids, Bool.not_eq_true] at clear
    simpa using clear
  · intro zero
    simp [ids, zero]

theorem lowest_some (lowest : s.lowest? = some id) : id ∈ s.ids ∧ ∀ j ∈ s.ids, id ≤ j := by
  rw [lowest?, List.find?_range_eq_some] at lowest
  obtain ⟨pending, -, before⟩ := lowest
  refine ⟨mem_ids.mpr pending, fun j mem => Nat.le_of_not_lt fun below => ?_⟩
  have clear := before j below
  rw [mem_ids.mp mem] at clear
  cases clear

end SoftTable

/-- What the events say about soft interrupts, newest first: the set of pending ids goes from
`start` to `pending`. A raise says whether the id was not pending yet. A dispatch serves the least
pending id, which is no longer pending when its handler runs. -/
inductive SoftHistory (slots : Nat) (start : Finset Nat) : List Event → Finset Nat → Prop where
  | start : SoftHistory slots start [] start
  | other {es pending e} (h : SoftHistory slots start es pending) (other : e.isSoft = false) :
    SoftHistory slots start (e :: es) pending
  | raised {es pending id} (h : SoftHistory slots start es pending) (inside : id < slots) :
    SoftHistory slots start (.raised id (decide (id ∉ pending)) :: es) (insert id pending)
  | dispatched {es pending id script} (h : SoftHistory slots start es pending)
    (mem : id ∈ pending) (least : ∀ j ∈ pending, id ≤ j) :
    SoftHistory slots start (.handlerRan id script true :: .served id :: es) (pending.erase id)

namespace SoftHistory

variable {slots : Nat} {start pending last : Finset Nat} {es es' : List Event}

theorem trans (h : SoftHistory slots start es pending) (h' : SoftHistory slots pending es' last) :
    SoftHistory slots start (es' ++ es) last := by
  induction h' with
  | start => exact h
  | other _ plain ih => exact ih.other plain
  | raised _ inside ih => exact ih.raised inside
  | dispatched _ mem least ih => exact ih.dispatched mem least

theorem others (plain : ∀ e ∈ es, e.isSoft = false) : SoftHistory slots start es start := by
  induction es with
  | nil => exact .start
  | cons e es ih =>
    have rest := ih fun e' mem => plain e' (List.mem_cons_of_mem e mem)
    exact rest.other (plain e List.mem_cons_self)

theorem inside (h : SoftHistory slots start es pending) (bounded : ∀ i ∈ start, i < slots) :
    ∀ i ∈ pending, i < slots := by
  induction h with
  | start => exact bounded
  | other _ _ ih => exact ih
  | raised _ inside ih =>
    intro i mem
    rcases Finset.mem_insert.mp mem with rfl | old
    · exact inside
    · exact ih i old
  | dispatched _ _ _ ih => exact fun i mem => ih i (Finset.mem_of_mem_erase mem)

/-- An id was raised afresh as often as it was served, and once more if it is pending. -/
theorem accounts (h : SoftHistory slots start es pending) (id : Nat) :
    es.count (.raised id true) + (if id ∈ start then 1 else 0) =
      es.count (.served id) + if id ∈ pending then 1 else 0 := by
  induction h with
  | start => simp
  | @other es pending e h plain ih =>
    have raised : e ≠ .raised id true := by
      rintro rfl
      cases plain
    have served : e ≠ .served id := by
      rintro rfl
      cases plain
    rw [List.count_cons_of_ne raised, List.count_cons_of_ne served]
    exact ih
  | @raised es pending i h inside ih =>
    rw [List.count_cons, List.count_cons_of_ne Event.noConfusion]
    by_cases same : i = id
    · subst same
      by_cases mem : i ∈ pending
      · simpa [mem] using ih
      · simp [mem] at ih ⊢
        omega
    · simpa [same, Ne.symm same] using ih
  | @dispatched es pending i script h mem least ih =>
    rw [List.count_cons_of_ne Event.noConfusion, List.count_cons_of_ne Event.noConfusion,
      List.count_cons_of_ne Event.noConfusion, List.count_cons]
    by_cases same : i = id
    · subst same
      simp [mem] at ih ⊢
      omega
    · simpa [same, Ne.symm same] using ih

def handled? : Event → Option Nat
  | .handlerRan id _ _ => some id
  | _ => none

/-- The ids whose handlers ran, in this order. -/
def handled (es : List Event) : List Nat := (es.filterMap handled?).reverse

theorem handled_append (es' es : List Event) : handled (es' ++ es) = handled es ++ handled es' := by
  rw [handled, List.filterMap_append, List.reverse_append, handled, handled]

theorem handled_others (plain : ∀ e ∈ es, e.isSoft = false) : handled es = [] := by
  have none : es.filterMap handled? = [] := by
    refine List.filterMap_eq_nil_iff.mpr fun e mem => ?_
    have other := plain e mem
    cases e <;> first | rfl | cases other
  rw [handled, none, List.reverse_nil]

theorem sort_least {id : Nat} (mem : id ∈ pending) (least : ∀ j ∈ pending, id ≤ j) :
    pending.sort = id :: (pending.erase id).sort := by
  conv_lhs => rw [← Finset.insert_erase mem]
  exact Finset.sort_insert _ (fun j other => least j (Finset.mem_of_mem_erase other))
    (Finset.notMem_erase id pending)

/-- As long as nothing is raised, the handlers run in ascending order of the pending ids. -/
theorem ascending (h : SoftHistory slots start es pending)
    (none_raised : ∀ id fresh, Event.raised id fresh ∉ es) :
    handled es ++ pending.sort = start.sort := by
  induction h with
  | start => rfl
  | @other es pending e h plain ih =>
    have alone : handled [e] = [] := handled_others (by simpa using plain)
    rw [← List.singleton_append, handled_append, alone, List.append_nil]
    exact ih fun id fresh mem => none_raised id fresh (List.mem_cons_of_mem e mem)
  | raised _ _ _ => exact absurd List.mem_cons_self (none_raised _ _)
  | @dispatched es pending id script h mem least ih =>
    have before := ih fun i fresh mem =>
      none_raised i fresh (List.mem_cons_of_mem _ (List.mem_cons_of_mem _ mem))
    have both : handled (.handlerRan id script true :: .served id :: es) = handled es ++ [id] := by
      simp [handled, handled?, List.filterMap_cons]
    rw [both, List.append_assoc, ← before, sort_least mem least]
    rfl

end SoftHistory

end CoopKernel
