import CoopKernel.Proofs.PassLooks
import CoopKernel.Proofs.TransferData
import Mathlib.Algebra.Order.Floor.Div
import Mathlib.Data.Nat.Count
import Mathlib.GroupTheory.GroupAction.Ring

/-!
# What the buffers of a transfer cost

A buffer is through at the look that finds the ready flag set for its last
byte; an empty buffer takes one byte as well. From these numbers of looks the
runs of the poll task are counted: every run but the last one of a buffer spends
a whole budget.
-/

namespace CoopKernel.Spi

namespace Transfer

def lengths : Transfer → List Nat
  | write data => [data.length]
  | read into => [into.length]
  | exchange data _ => [data.length]
  | writeList data => data.map List.length
  | readList into => into.map Span.length
  | exchangeList data _ => data.map List.length

def isList : Transfer → Bool
  | write _ | read _ | exchange _ _ => false
  | writeList _ | readList _ | exchangeList _ _ => true

end Transfer

/-- `c` looks are the fewest, counted from look `o` on, among which the flag is set so often. -/
def Takes (flag : Nat → Bool) (o hits c : Nat) : Prop :=
  IsLeast {n | hits ≤ Nat.count (fun k => flag (o + k) = true) n} c

/-- The looks that buffers of such lengths take, each counted from where the one before it
stopped. -/
inductive Costs (flag : Nat → Bool) : Nat → List Nat → List Nat → Prop where
  | nil {o : Nat} : Costs flag o [] []
  | cons {o length c : Nat} {lengths costs : List Nat} (takes : Takes flag o (max length 1) c)
    (rest : Costs flag (o + c) lengths costs) : Costs flag o (length :: lengths) (c :: costs)

theorem Costs.length {flag : Nat → Bool} {o : Nat} {lengths costs : List Nat}
    (h : Costs flag o lengths costs) : costs.length = lengths.length := by
  induction h with
  | nil => rfl
  | cons _ _ ih => rw [List.length_cons, List.length_cons, ih]

variable {flag : Nat → Bool} {o hits c : Nat} {seen answers : List Bool}

theorem Answers.count (h : Answers flag o answers) :
    Nat.count (fun k => flag (o + k) = true) answers.length = answers.count true := by
  have tally : answers.count true =
      ((List.range answers.length).map fun k => flag (o + k)).count true := congrArg _ h
  rw [tally, Nat.count, List.count, List.countP_map]
  exact List.countP_congr fun k _ => by simp

/-- The look that finds the flag set for the last time completes the cost. -/
theorem Answers.takes {before : List Bool} (h : Answers flag o (before ++ [true]))
    (all : (before ++ [true]).count true = hits) : Takes flag o hits (before.length + 1) := by
  have most := h.count
  have fewer := h.split.1.count
  rw [List.length_append, List.length_singleton, all] at most
  have one : before.count true + 1 = hits := by simpa using all
  constructor
  · exact most.ge
  · -- One look fewer finds the flag set once less.
    intro n enough
    by_contra short
    have enough' : hits ≤ Nat.count (fun k => flag (o + k) = true) n := enough
    have bound := Nat.count_monotone (fun k => flag (o + k) = true)
      (show n ≤ before.length by omega)
    omega

theorem Takes.pos (takes : Takes flag o hits c) (some : 0 < hits) : 0 < c := by
  apply Nat.pos_of_ne_zero
  rintro rfl
  have enough : hits ≤ Nat.count (fun k => flag (o + k) = true) 0 := takes.1
  rw [Nat.count_zero] at enough
  omega

/-- After looks that did not find the flag set often enough, the rest of the cost is left. -/
theorem Takes.after {still : Nat} (takes : Takes flag o hits c) (seen : Answers flag o answers)
    (missing : 0 < still) (sum : still + answers.count true = hits) :
    answers.length < c ∧ Takes flag (o + answers.length) still (c - answers.length) := by
  have spent := seen.count
  have enough : hits ≤ Nat.count (fun k => flag (o + k) = true) c := takes.1
  have long : answers.length < c := by
    by_contra short
    have within := Nat.count_monotone (fun k => flag (o + k) = true) (Nat.le_of_not_lt short)
    omega
  have shift : ∀ n, Nat.count (fun k => flag (o + k) = true) (answers.length + n) =
      answers.count true + Nat.count (fun k => flag (o + answers.length + k) = true) n := by
    intro n
    rw [Nat.count_add, spent]
    simp only [Nat.add_assoc]
  refine ⟨long, ?_, ?_⟩
  · change still ≤ _
    have whole := shift (c - answers.length)
    rw [Nat.add_sub_cancel' long.le] at whole
    omega
  · intro n later
    have later' : still ≤ Nat.count (fun k => flag (o + answers.length + k) = true) n := later
    have least : c ≤ answers.length + n := takes.2 (by
      change hits ≤ _
      rw [shift]
      omega)
    omega

/-- Runs of a poll task: those that look at the flag, those of them that yield, and those that
turn to the next buffer. -/
structure Tally where
  polls : Nat := 0
  yields : Nat := 0
  reloads : Nat := 0

namespace Tally

def poll (yielded : Bool) (n : Tally) : Tally :=
  { n with polls := n.polls + 1, yields := n.yields + yielded.toNat }

def reload (n : Tally) : Tally := { n with reloads := n.reloads + 1 }

@[simp] theorem polls_poll (yielded : Bool) (n : Tally) :
    (n.poll yielded).polls = n.polls + 1 := rfl

@[simp] theorem yields_poll (yielded : Bool) (n : Tally) :
    (n.poll yielded).yields = n.yields + yielded.toNat := rfl

@[simp] theorem reloads_poll (yielded : Bool) (n : Tally) :
    (n.poll yielded).reloads = n.reloads := rfl

@[simp] theorem polls_reload (n : Tally) : n.reload.polls = n.polls := rfl

@[simp] theorem reloads_reload (n : Tally) : n.reload.reloads = n.reloads + 1 := rfl

end Tally

/-- Runs and looks made, together with those to come, make up the bill: `costs` are those of all
buffers and `due` those of the current buffer, as far as it is not through, and of later ones. -/
structure Balance (budget : Nat) (list : Bool) (costs due : List Nat) (reloads : Nat) (n : Tally)
    (looks : Nat) : Prop where
  polls : n.polls + (due.map (· ⌈/⌉ budget)).sum = (costs.map (· ⌈/⌉ budget)).sum
  yields : n.yields + (due.map (· ⌈/⌉ budget - 1)).sum = (costs.map (· ⌈/⌉ budget - 1)).sum
  reloads : n.reloads + reloads = if list then costs.length else 0
  looks : looks + due.sum = costs.sum

namespace Balance

variable {budget looks reloads : Nat} {list : Bool} {costs due : List Nat} {n : Tally}

theorem start (budget : Nat) (list : Bool) (costs : List Nat) :
    Balance budget list costs costs (if list then costs.length else 0) {} 0 := by
  constructor <;> simp

/-- A run that spends its budget on a buffer saves one run of the rest. -/
theorem yielded (h : Balance budget list costs (c :: due) reloads n looks) (some : 0 < budget)
    (more : budget < c) :
    Balance budget list costs ((c - budget) :: due) reloads (n.poll true) (looks + budget) := by
  have runs : c ⌈/⌉ budget = (c - budget) ⌈/⌉ budget + 1 := by
    rw [Nat.ceilDiv_eq_add_pred_div, Nat.ceilDiv_eq_add_pred_div, ← Nat.add_div_right _ some]
    congr 1
    omega
  have left : 0 < (c - budget) ⌈/⌉ budget := by
    by_contra none_left
    have covered := (ceilDiv_le_iff_le_mul some).mp (Nat.le_of_not_lt none_left)
    omega
  obtain ⟨polls, yields, turns, total⟩ := h
  rw [List.map_cons, List.sum_cons, runs] at polls yields
  rw [List.sum_cons] at total
  constructor
  · rw [List.map_cons, List.sum_cons, Tally.polls_poll]
    omega
  · rw [List.map_cons, List.sum_cons, Tally.yields_poll, Bool.toNat_true]
    omega
  · exact turns
  · rw [List.sum_cons]
    omega

/-- A buffer whose cost the budget covers is through with one run. -/
theorem through (h : Balance budget list costs (c :: due) reloads n looks) (some : 0 < c)
    (within : c ≤ budget) :
    Balance budget list costs due reloads (n.poll false) (looks + c) := by
  have runs : c ⌈/⌉ budget = 1 := by
    apply Nat.le_antisymm
    · exact (ceilDiv_le_iff_le_mul (by omega)).mpr (by omega)
    · by_contra none_left
      have covered := (ceilDiv_le_iff_le_mul (a := budget) (b := c) (c := 0) (by omega)).mp
        (by omega)
      omega
  obtain ⟨polls, yields, turns, total⟩ := h
  rw [List.map_cons, List.sum_cons, runs] at polls yields
  rw [List.sum_cons] at total
  constructor
  · rw [Tally.polls_poll]
    omega
  · rw [Tally.yields_poll, Bool.toNat_false]
    omega
  · exact turns
  · omega

theorem reloaded (h : Balance budget list costs due (reloads + 1) n looks) :
    Balance budget list costs due reloads n.reload looks := by
  obtain ⟨polls, yields, turns, total⟩ := h
  refine ⟨polls, yields, ?_, total⟩
  rw [← turns, Tally.reloads_reload]
  omega

/-- The runs pay for the looks. -/
theorem sum_le_runs (budget : Nat) (some : 0 < budget) (due : List Nat) :
    due.sum ≤ budget * (due.map (· ⌈/⌉ budget)).sum := by
  induction due with
  | nil => simp
  | cons c due ih =>
    have first : c ≤ budget * (c ⌈/⌉ budget) := (ceilDiv_le_iff_le_mul some).mp le_rfl
    rw [List.map_cons, List.sum_cons, List.sum_cons, Nat.mul_add]
    omega

/-- As long as a buffer costs something or is to be loaded, runs are missing. -/
theorem short (h : Balance budget list costs due reloads n looks) (some : 0 < budget)
    (missing : 0 < reloads ∨ 0 < due.sum) :
    n.polls + n.reloads <
      (costs.map (· ⌈/⌉ budget)).sum + if list then costs.length else 0 := by
  rw [← h.polls, ← h.reloads]
  rcases missing with turns | looks
  · omega
  · have paid := sum_le_runs budget some due
    have runs : 0 < (due.map (· ⌈/⌉ budget)).sum := by
      by_contra none_left
      rw [Nat.eq_zero_of_not_pos none_left, Nat.mul_zero] at paid
      omega
    omega

end Balance

namespace Master

variable {m : Master} {memory : Memory}

/-- The lengths of the buffers that are still to be loaded. -/
def queued (m : Master) : List Nat :=
  match m.lanes with
  | ⟨true, false, true⟩ => m.writeList.map List.length
  | ⟨false, true, true⟩ => m.readList.map Span.length
  | ⟨true, true, true⟩ => (m.writeList.zip m.readList).map fun (data, _) => data.length
  | _ => []

/-- The lengths of the buffers that are not through, the current one by the bytes left. -/
def lacking (m : Master) : List Nat :=
  match m.phase with
  | .poll => m.remaining :: m.queued
  | .reload => m.queued

theorem SameTransfer.queued {m' : Master} (same : m.SameTransfer m') : m'.queued = m.queued := by
  simp only [Master.queued, same.lanes, same.readList, same.writeList]

theorem queued_of_single (single : m.lanes.list = false) : m.queued = [] := by
  rw [queued]
  split <;> rename_i lanes <;> first | rfl | (rw [lanes] at single; cases single)

theorem RunCost.queued (cost : m.RunCost memory) :
    (m.poll memory).master.queued = m.queued := by
  obtain ⟨readList, writeList⟩ := cost.lists
  simp only [Master.queued, cost.lanes, readList, writeList]

/-- A run that gets the buffer through makes all the looks that the buffer still takes. -/
theorem RunCost.takes {flag : Nat → Bool} {o c : Nat} (cost : m.RunCost memory)
    (through : (m.poll memory).ending ≠ .yielded) (takes : Takes flag o (max m.remaining 1) c)
    (seen : Answers flag o (m.looksOfRun memory)) : (m.looksOfRun memory).length = c ∧ 0 < c := by
  obtain ⟨before, last, all⟩ := cost.through through
  rw [last] at seen all ⊢
  have looks := takes.unique (seen.takes all)
  rw [List.length_append, List.length_singleton]
  omega

structure SameCounters (m m' : Master) : Prop where
  budget : m'.budget = m.budget
  polls : m'.polls = m.polls
  yields : m'.yields = m.yields

structure Counts (first : Master) (n : Tally) (m : Master) : Prop where
  budget : m.budget = first.budget
  polls : m.polls = first.polls + UInt32.ofNat n.polls
  yields : m.yields = first.yields + UInt32.ofNat n.yields

theorem Counts.start (m : Master) : m.Counts {} m :=
  ⟨rfl, (UInt32.add_zero _).symm, (UInt32.add_zero _).symm⟩

theorem Counts.same {first m' : Master} {n : Tally} (h : first.Counts n m)
    (same : m.SameCounters m') : first.Counts n m' :=
  ⟨same.budget.trans h.budget, same.polls.trans h.polls, same.yields.trans h.yields⟩

theorem Counts.reload {first : Master} {n : Tally} (h : first.Counts n m) :
    first.Counts n.reload m := ⟨h.budget, h.polls, h.yields⟩

theorem Counts.poll {first : Master} {n : Tally} (h : first.Counts n m) (memory : Memory) :
    first.Counts (n.poll ((m.poll memory).ending = .yielded)) (m.poll memory).master := by
  have cost := run_cost memory m
  constructor
  · rw [cost.budget, h.budget]
  · rw [cost.polls, h.polls, Tally.polls_poll, UInt32.ofNat_add, UInt32.add_assoc]
    rfl
  · rw [cost.yields, h.yields, Tally.yields_poll, UInt32.ofNat_add, ← UInt32.add_assoc]
    split
    · rename_i yielded
      rw [decide_eq_true yielded]
      rfl
    · rename_i through
      rw [decide_eq_false through]
      exact (UInt32.add_zero _).symm

/-- A transfer that is set up has one buffer current and the others still to be loaded. -/
theorem accept_lengths (memory : Memory) (m : Master) {t : Transfer} (accepted : t.fault? = none) :
    ∃ first n m', m.accept memory t = (first, n, m') ∧ m.SameCounters m' ∧
      (m'.lanes.write = true ∨ m'.lanes.read = true) ∧ m'.lanes.list = t.isList ∧
      t.lengths = n :: m'.queued := by
  cases t with
  | write data => exact ⟨_, _, _, rfl, ⟨rfl, rfl, rfl⟩, Or.inl rfl, rfl, rfl⟩
  | read into => exact ⟨_, _, _, rfl, ⟨rfl, rfl, rfl⟩, Or.inr rfl, rfl, rfl⟩
  | exchange data into => exact ⟨_, _, _, rfl, ⟨rfl, rfl, rfl⟩, Or.inl rfl, rfl, rfl⟩
  | writeList data =>
    obtain _ | ⟨d, ds⟩ := data
    · cases accepted
    · exact ⟨_, _, _, rfl, ⟨rfl, rfl, rfl⟩, Or.inl rfl, rfl, rfl⟩
  | readList into =>
    obtain _ | ⟨i, is⟩ := into
    · cases accepted
    · exact ⟨_, _, _, rfl, ⟨rfl, rfl, rfl⟩, Or.inr rfl, rfl, rfl⟩
  | exchangeList data into =>
    obtain ⟨same, -⟩ := Transfer.pairs_of_accepted accepted
    obtain _ | ⟨d, ds⟩ := data
    · cases accepted
    obtain _ | ⟨i, is⟩ := into
    · cases accepted
    have fit : ds.length ≤ is.length := (Nat.succ.inj same).le
    have firsts : (ds.zip is).map (fun (data, _) => data.length) = ds.map List.length := by
      conv_rhs => rw [← List.map_fst_zip fit, List.map_map]
      rfl
    exact ⟨_, _, _, rfl, ⟨rfl, rfl, rfl⟩, Or.inl rfl, rfl, congrArg _ firsts.symm⟩

/-- Either the lists have run out, or the next buffer is loaded. -/
theorem advance_lengths (memory : Memory) (m : Master)
    (moves : m.lanes.write = true ∨ m.lanes.read = true) (list : m.lanes.list = true) :
    (∃ m', m.advance memory = (none, m') ∧ m.SameCounters m' ∧ m'.lanes = m.lanes ∧
        m.queued = []) ∨
      ∃ first n m', m.advance memory = (some (first, n), m') ∧ m.SameCounters m' ∧
        m'.lanes = m.lanes ∧ m.queued = n :: m'.queued := by
  rcases hl : m.lanes with ⟨write, read, _⟩
  rw [hl] at moves list
  obtain rfl : _ = true := list
  cases read with
  | false =>
    obtain rfl : write = true := by simpa using moves
    rcases hd : m.writeList with _ | ⟨d, ds⟩
    · exact Or.inl ⟨m, by simp [advance, hl, hd], ⟨rfl, rfl, rfl⟩, hl,
        by simp [queued, hl, hd]⟩
    · exact Or.inr ⟨_, d.length, { m with writeList := ds, write := .bytes d.tail },
        by simp [advance, hl, hd, aim, Source.rest]; rfl, ⟨rfl, rfl, rfl⟩, hl,
        by simp [queued, hl, hd]⟩
  | true =>
    rcases hi : m.readList with _ | ⟨i, is⟩
    · exact Or.inl ⟨m, by simp [advance, hl, hi], ⟨rfl, rfl, rfl⟩, hl,
        by cases write <;> simp [queued, hl, hi]⟩
    cases write with
    | false =>
      exact Or.inr ⟨0, i.length, { m with readList := is, read := i }, by simp [advance, hl, hi],
        ⟨rfl, rfl, rfl⟩, hl, by simp [queued, hl, hi]⟩
    | true =>
      rcases hd : m.writeList with _ | ⟨d, ds⟩
      · exact Or.inl ⟨{ m with readList := is, read := i }, by simp [advance, hl, hi, hd],
          ⟨rfl, rfl, rfl⟩, hl, by simp [queued, hl, hd]⟩
      · exact Or.inr ⟨_, d.length,
          { m with readList := is, read := i, writeList := ds, write := .bytes d.tail },
          by simp [advance, hl, hi, hd, aim, Source.rest]; rfl, ⟨rfl, rfl, rfl⟩, hl,
          by simp [queued, hl, hi, hd]⟩

end Master

end CoopKernel.Spi
