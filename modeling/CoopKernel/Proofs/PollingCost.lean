import CoopKernel.Proofs.BufferCosts
import CoopKernel.Proofs.TransferRun

/-!
# What a transfer costs

Runs of the poll task from the start of a transfer to its end, counted by what
they do. Between them others may do whatever leaves the transfer and its wire
alone; the ready flag answers as it likes. The numbers of runs and of looks that
complete the transfer follow from the answers of the flag.
-/

namespace CoopKernel.Board

open Spi

/-- Whoever ran in between left the registers of the transfer alone, its budget and counters, the
wire and the worker of the poll task. -/
structure Aloof (bus : Nat) (b b' : Board) : Prop where
  transfer : (b.masters.get bus).SameTransfer (b'.masters.get bus)
  counters : (b.masters.get bus).SameCounters (b'.masters.get bus)
  wires : b'.kernel.wires bus = b.kernel.wires bus
  bound : b.kernel.isBound (.poll bus) = true → b'.kernel.isBound (.poll bus) = true

inductive Course (bus : Nat) (b : Board) : Tally → Board → Prop where
  | start : Course bus b {} b
  | others {n : Tally} {b₁ b₂ : Board} (before : Course bus b n b₁) (aloof : Aloof bus b₁ b₂) :
    Course bus b n b₂
  | polled {n : Tally} {b₁ b₂ : Board} (before : Course bus b n b₁)
    (busy : (b₁.masters.get bus).status = .inProgress) (phase : (b₁.masters.get bus).phase = .poll)
    (ran : runPoller bus b₁ = .ok () b₂) :
    Course bus b (n.poll (((b₁.masters.get bus).poll b₁.memory).ending = .yielded)) b₂
  | reloaded {n : Tally} {b₁ b₂ : Board} (before : Course bus b n b₁)
    (busy : (b₁.masters.get bus).status = .inProgress)
    (phase : (b₁.masters.get bus).phase = .reload) (ran : runPoller bus b₁ = .ok () b₂) :
    Course bus b n.reload b₂

/-- The invariant of a course. The registers fit the transfer and the counters count its runs.
However the flag goes on after the answers `seen`, runs and looks make up the bill together with
what the buffers that are not through will cost. -/
structure Tracked (bus : Nat) (first : Master) (list : Bool) (lengths : List Nat) (seen : List Bool)
    (n : Tally) (b : Board) : Prop where
  bound : b.kernel.isBound (.poll bus) = true
  counts : first.Counts n (b.masters.get bus)
  lanes : (b.masters.get bus).lanes.list = list
  moves : (b.masters.get bus).lanes.write = true ∨ (b.masters.get bus).lanes.read = true
  listed : (b.masters.get bus).phase = .reload → list = true
  owed : (b.masters.get bus).status = .inProgress → ∀ flag costs, Answers flag 0 seen →
    Costs flag 0 lengths costs → ∃ due, Costs flag seen.length (b.masters.get bus).lacking due ∧
      Balance first.budget.loops.toNat list costs due
        (if list then (b.masters.get bus).queued.length + 1 else 0) n seen.length
  paid : (b.masters.get bus).status = .ok → ∀ flag costs, Answers flag 0 seen →
    Costs flag 0 lengths costs → Balance first.budget.loops.toNat list costs [] 0 n seen.length

variable {b b' : Board} {bus : Nat} {first : Master} {list : Bool} {lengths : List Nat}
variable {seen : List Bool} {n : Tally}

theorem Requeued.aloof (bus : Nat) (h : Requeued b b') : Aloof bus b b' := by
  have apart := h.apart (fun _ => True) bus
  obtain ⟨k, events, rfl, relinked, -⟩ := h
  exact ⟨apart.transfer, ⟨rfl, rfl, rfl⟩, apart.wires, fun bound =>
    (relinked.isBound _).trans bound⟩

theorem Requeued.masters (h : Requeued b b') : b'.masters = b.masters := by
  obtain ⟨k, events, rfl, -⟩ := h
  rfl

theorem Aloof.looks (h : Aloof bus b b') : b'.kernel.looks bus = b.kernel.looks bus := by
  rw [Kernel.looks, h.wires, Kernel.looks]

theorem looks_prime (first : UInt8) (n : Nat) :
    (prime bus first n b).kernel.looks bus = b.kernel.looks bus := by
  rw [Kernel.looks, wires_prime, Wire.looksOf_append]
  exact List.append_nil _

theorem looks_polled (bus : Nat) (b : Board) :
    (b.polled bus).kernel.looks bus =
      b.kernel.looks bus ++ (b.masters.get bus).looksOfRun b.memory := by
  have wires : (b.polled bus).kernel.wires bus = _ := Kernel.wires_traffic bus _
  rw [Kernel.looks, wires, Wire.looksOf_append]
  rfl

theorem requeued_polled (phase : (b.masters.get bus).phase = .poll)
    (ran : runPoller bus b = .ok () b') : Requeued (b.polled bus) b' := by
  rw [runPoller_poll phase] at ran
  split at ran
  · exact requeued_wakeHolder ran
  · exact requeued_schedulePoll ran

namespace Tracked

theorem aloof (h : Tracked bus first list lengths seen n b) (aloof : Aloof bus b b') :
    Tracked bus first list lengths seen n b' := by
  have queued := aloof.transfer.queued
  obtain ⟨phase, lanes, status, remaining, -, -, -, -⟩ := aloof.transfer
  have lacking : (b'.masters.get bus).lacking = (b.masters.get bus).lacking := by
    simp only [Master.lacking, phase, remaining, queued]
  constructor
  · exact aloof.bound h.bound
  · exact h.counts.same aloof.counters
  · rw [lanes]
    exact h.lanes
  · rw [lanes]
    exact h.moves
  · rw [phase]
    exact h.listed
  · rw [status, lacking, queued]
    exact h.owed
  · rw [status]
    exact h.paid

/-- What the current buffer still takes, and the ones after it. -/
theorem current (h : Tracked bus first list lengths seen n b)
    (busy : (b.masters.get bus).status = .inProgress) (phase : (b.masters.get bus).phase = .poll)
    {flag : Nat → Bool} {costs : List Nat} (answers : Answers flag 0 seen)
    (bill : Costs flag 0 lengths costs) :
    ∃ c due, Takes flag seen.length (max (b.masters.get bus).remaining 1) c ∧
      Costs flag (seen.length + c) (b.masters.get bus).queued due ∧
      Balance first.budget.loops.toNat list costs (c :: due)
        (if list then (b.masters.get bus).queued.length + 1 else 0) n seen.length := by
  obtain ⟨due, left, balance⟩ := h.owed busy flag costs answers bill
  rw [Master.lacking, phase] at left
  cases left with
  | cons takes rest => exact ⟨_, _, takes, rest, balance⟩

/-- A run that looks at the flag pays for the looks. It spends its budget, or it ends with the look
that finds the last byte of the buffer through. -/
theorem pays (h : Tracked bus first list lengths seen n b)
    (busy : (b.masters.get bus).status = .inProgress) (phase : (b.masters.get bus).phase = .poll)
    {flag : Nat → Bool} {costs : List Nat}
    (answers : Answers flag 0 (seen ++ (b.masters.get bus).looksOfRun b.memory))
    (bill : Costs flag 0 lengths costs) :
    let r := (b.masters.get bus).poll b.memory
    let looks := seen.length + ((b.masters.get bus).looksOfRun b.memory).length
    (r.ending ≠ .transferDone → ∃ due, Costs flag looks r.master.lacking due ∧
      Balance first.budget.loops.toNat list costs due
        (if list then r.master.queued.length + 1 else 0) (n.poll (r.ending = .yielded)) looks) ∧
      (r.ending = .transferDone →
        Balance first.budget.loops.toNat list costs [] 0 (n.poll (r.ending = .yielded)) looks) := by
  have cost := Master.run_cost b.memory (b.masters.get bus)
  obtain ⟨before, now⟩ := answers.split
  rw [Nat.zero_add] at now
  obtain ⟨c, due, takes, rest, balance⟩ := h.current busy phase before bill
  have within := cost.within
  rw [h.counts.budget] at within
  simp only [cost.queued]
  cases ending : ((b.masters.get bus).poll b.memory).ending with
  | yielded =>
    obtain ⟨all, -, polling, left⟩ := cost.yielded ending
    rw [h.counts.budget] at all
    obtain ⟨more, rest'⟩ := takes.after now (by omega) left
    refine ⟨fun _ => ⟨(c - first.budget.loops.toNat) :: due, ?_, ?_⟩, fun done => by cases done⟩
    · rw [Master.lacking, polling, phase, cost.queued]
      rw [all] at more rest' ⊢
      refine .cons rest' ?_
      rw [Nat.add_assoc, Nat.add_sub_cancel' more.le]
      exact rest
    · rw [all] at more ⊢
      exact balance.yielded first.budget.loops_pos more
  | bufferDone =>
    obtain ⟨-, -, reload⟩ := cost.bufferDone ending
    obtain ⟨all, some⟩ := cost.takes (by rw [ending]; decide) takes now
    refine ⟨fun _ => ⟨due, ?_, ?_⟩, fun done => by cases done⟩
    · rw [Master.lacking, reload, cost.queued, all]
      exact rest
    · rw [all] at within ⊢
      exact balance.through some within
  | transferDone =>
    obtain ⟨single, -, -⟩ := cost.transferDone ending
    obtain ⟨all, some⟩ := cost.takes (by rw [ending]; decide) takes now
    refine ⟨fun going => absurd rfl going, fun _ => ?_⟩
    rw [Master.queued_of_single single] at rest balance
    cases rest
    have no_list : list = false := h.lanes.symm.trans single
    subst no_list
    rw [all] at within ⊢
    exact balance.through some within

/-- A run that polls makes the looks that it is billed for. -/
theorem polled (h : Tracked bus first list lengths seen n b)
    (busy : (b.masters.get bus).status = .inProgress)
    (phase : (b.masters.get bus).phase = .poll) :
    Tracked bus first list lengths (seen ++ (b.masters.get bus).looksOfRun b.memory)
      (n.poll (((b.masters.get bus).poll b.memory).ending = .yielded)) (b.polled bus) := by
  have cost := Master.run_cost b.memory (b.masters.get bus)
  have master := masters_polled bus b
  constructor
  · exact h.bound
  · rw [master]
    exact h.counts.poll b.memory
  · rw [master, cost.lanes, h.lanes]
  · rw [master, cost.lanes]
    exact h.moves
  · rw [master]
    intro reload
    cases ending : ((b.masters.get bus).poll b.memory).ending with
    | yielded =>
      obtain ⟨-, -, polling, -⟩ := cost.yielded ending
      rw [polling, phase] at reload
      cases reload
    | bufferDone => exact h.lanes.symm.trans (cost.bufferDone ending).1
    | transferDone =>
      obtain ⟨-, -, polling⟩ := cost.transferDone ending
      rw [polling, phase] at reload
      cases reload
  · rw [master, List.length_append]
    intro going flag costs answers bill
    refine (h.pays busy phase answers bill).1 fun done => ?_
    rw [Master.status_of_done done] at going
    cases going
  · rw [master, List.length_append]
    intro done flag costs answers bill
    refine (h.pays busy phase answers bill).2 ?_
    by_contra going
    rw [Master.status_of_going going, busy] at done
    cases done

/-- A buffer that was loaded and primed is to be paid for, together with the ones after it. -/
theorem loaded {m : Master} (out : UInt8) (length : Nat) (counts : first.Counts n m)
    (lanes : m.lanes.list = list) (moves : m.lanes.write = true ∨ m.lanes.read = true)
    (owed : ∀ flag costs, Answers flag 0 seen → Costs flag 0 lengths costs →
      ∃ due, Costs flag seen.length (length :: m.queued) due ∧
        Balance first.budget.loops.toNat list costs due
          (if list then m.queued.length + 1 else 0) n seen.length) :
    Tracked bus first list lengths seen n
      (prime bus out length { b with masters := b.masters.set bus m }) := by
  have master : (prime bus out length { b with masters := b.masters.set bus m }).masters.get bus =
      { m.begin length with controller := m.controller.write out } := by
    rw [masters_prime, Bank.get_set_same]
  constructor
  all_goals try rw [master]
  · exact poll_bound_prime out length
  · exact ⟨counts.budget, counts.polls, counts.yields⟩
  · exact lanes
  · exact moves
  · intro reload
    cases reload
  · exact fun _ => owed
  · intro done
    cases done

/-- A run that turns to the next buffer, or ends the transfer after the last one. -/
theorem reloaded (h : Tracked bus first list lengths seen n b)
    (busy : (b.masters.get bus).status = .inProgress)
    (phase : (b.masters.get bus).phase = .reload) (ran : runPoller bus b = .ok () b') :
    Tracked bus first list lengths seen n.reload b' ∧
      b'.kernel.looks bus = b.kernel.looks bus := by
  have lists : list = true := h.listed phase
  have owed := h.owed busy
  rw [Master.lacking, phase, lists] at owed
  rw [runPoller_reload phase] at ran
  rcases Master.advance_lengths b.memory (b.masters.get bus) h.moves (h.lanes.trans lists) with
    ⟨m, advanced, counters, lanes, none_queued⟩ | ⟨out, next, m, advanced, counters, lanes, queued⟩
  · rw [reload_ended advanced] at ran
    have aloof := (requeued_wakeHolder ran).aloof bus
    have counts := (h.counts.same counters).reload
    have master : (modifyMaster bus Master.finish
        { b with masters := b.masters.set bus m }).masters.get bus = m.finish := by
      simp [modifyMaster, Bank.get_modify]
    refine ⟨Tracked.aloof ?_ aloof, aloof.looks⟩
    constructor
    all_goals try rw [master]
    · exact h.bound
    · exact ⟨counts.budget, counts.polls, counts.yields⟩
    · exact (congrArg Lanes.list lanes).trans h.lanes
    · exact lanes.symm ▸ h.moves
    · exact fun _ => lists
    · intro going
      cases going
    · intro _ flag costs answers bill
      obtain ⟨due, left, balance⟩ := owed flag costs answers bill
      rw [none_queued] at left balance
      cases left
      rw [lists]
      exact balance.reloaded
  · rw [reload_loaded advanced] at ran
    have aloof := (requeued_schedulePoll ran).aloof bus
    have tracked : Tracked bus first list lengths seen n.reload
        (prime bus out next { b with masters := b.masters.set bus m }) := by
      refine .loaded out next (h.counts.same counters).reload
        ((congrArg Lanes.list lanes).trans h.lanes) (lanes.symm ▸ h.moves) ?_
      intro flag costs answers bill
      obtain ⟨due, left, balance⟩ := owed flag costs answers bill
      rw [queued] at left balance
      rw [lists]
      exact ⟨due, left, balance.reloaded⟩
    exact ⟨tracked.aloof aloof, aloof.looks.trans (looks_prime out next)⟩

/-- While the transfer is in progress, runs are missing. -/
theorem short (h : Tracked bus first list lengths seen n b)
    (busy : (b.masters.get bus).status = .inProgress) {flag : Nat → Bool} {costs : List Nat}
    (answers : Answers flag 0 seen) (bill : Costs flag 0 lengths costs) :
    n.polls + n.reloads < (costs.map (· ⌈/⌉ first.budget.loops.toNat)).sum +
      if list then lengths.length else 0 := by
  rw [← bill.length]
  cases phase : (b.masters.get bus).phase with
  | poll =>
    obtain ⟨c, due, takes, -, balance⟩ := h.current busy phase answers bill
    refine balance.short first.budget.loops_pos (Or.inr ?_)
    have some : 0 < c := takes.pos (by omega)
    rw [List.sum_cons]
    omega
  | reload =>
    obtain ⟨due, -, balance⟩ := h.owed busy flag costs answers bill
    refine balance.short first.budget.loops_pos (Or.inl ?_)
    rw [if_pos (h.listed phase)]
    omega

end Tracked

/-- An accepted transfer starts, and all of it is to be paid for. -/
theorem start_tracked (bus : Nat) (b : Board) {t : Transfer} (accepted : t.fault? = none) :
    ∃ b₁, Board.start bus t b = .ok () b₁ ∧ (b₁.masters.get bus).status = .inProgress ∧
      b₁.kernel.looks bus = b.kernel.looks bus ∧
      Tracked bus (b.masters.get bus) t.isList t.lengths [] {} b₁ := by
  obtain ⟨out, length, m, taken, counters, moves, list, lengths⟩ :=
    Master.accept_lengths b.memory (b.masters.get bus) accepted
  have tracked : Tracked bus (b.masters.get bus) t.isList t.lengths [] {}
      (prime bus out length { b with masters := b.masters.set bus m }) := by
    refine .loaded out length ((Master.Counts.start _).same counters) list moves ?_
    intro flag costs _ bill
    have opening := Balance.start (b.masters.get bus).budget.loops.toNat t.isList costs
    rw [bill.length, lengths] at opening
    rw [lengths] at bill
    exact ⟨costs, bill, opening⟩
  obtain ⟨b₁, scheduled⟩ := schedulePoll_bound tracked.bound
  have aloof := (requeued_schedulePoll scheduled).aloof bus
  refine ⟨b₁, (start_accepted accepted taken).trans scheduled, ?_,
    aloof.looks.trans (looks_prime out length), tracked.aloof aloof⟩
  rw [aloof.transfer.status, masters_prime, Bank.get_set_same]
  rfl

/-- By induction on the course; each run pays for itself. -/
theorem Course.tracked (course : Course bus b n b')
    (h : Tracked bus first list lengths [] {} b) :
    ∃ seen, b'.kernel.looks bus = b.kernel.looks bus ++ seen ∧
      Tracked bus first list lengths seen n b' := by
  induction course with
  | start => exact ⟨[], (List.append_nil _).symm, h⟩
  | others _ aloof ih =>
    obtain ⟨seen, split, tracked⟩ := ih
    exact ⟨seen, aloof.looks.trans split, tracked.aloof aloof⟩
  | polled _ busy phase ran ih =>
    obtain ⟨seen, split, tracked⟩ := ih
    have aloof := (requeued_polled phase ran).aloof bus
    refine ⟨_, ?_, (tracked.polled busy phase).aloof aloof⟩
    rw [aloof.looks, looks_polled, split, List.append_assoc]
  | reloaded _ busy phase ran ih =>
    obtain ⟨seen, split, tracked⟩ := ih
    obtain ⟨tracked', looks⟩ := tracked.reloaded busy phase ran
    exact ⟨seen, looks.trans split, tracked'⟩

/-- A run of the poll task succeeds; the holder that it may wake needs a worker. -/
theorem runPoller_ok (bound : b.kernel.isBound (.poll bus) = true)
    (held : ∀ t, b.kernel.holder (.bus bus) = some t → b.kernel.isBound t = true) :
    ∃ b', runPoller bus b = .ok () b' := by
  rcases runPoller_cases bus b with ⟨b₁, same, steady, -⟩ | ⟨b₁, same, steady, -⟩
  · obtain ⟨b₂, scheduled⟩ := schedulePoll_bound (steady.bound _ bound)
    exact ⟨b₂, same.trans scheduled⟩
  · rw [same, wakeHolder_eq, steady.holder]
    cases holder : b.kernel.holder (.bus bus) with
    | none => exact ⟨_, rfl⟩
    | some t =>
      have worker := steady.bound t (held t holder)
      rcases b₁.kernel.relinked_add (b₁.feedQueue bus) t with ⟨k, _, _, added, -⟩ | refused
      · exact ⟨{ b₁ with kernel := k }, by rw [Kernel.addOptional, added]⟩
      · rw [Kernel.add, if_pos worker] at refused
        cases refused

/-- Whatever comes in between, a transfer costs what the answers of the flag say. A run makes no
more looks than the budget has, and as many if it yields. A buffer that takes `c` looks takes
`c ⌈/⌉ budget` runs, all of which but the last one yield; between the runs for two buffers of a
list, and after the last one, is one run that looks at nothing. Until these runs are over the
transfer is in progress, and its next run does not fail. -/
theorem polling_cost_is_exact (bus : Nat) (b : Board) {t : Transfer} (accepted : t.fault? = none) :
    let budget := (b.masters.get bus).budget.loops.toNat
    let turns := if t.isList then t.lengths.length else 0
    ∃ b₁, Board.start bus t b = .ok () b₁ ∧ (b₁.masters.get bus).status = .inProgress ∧
      ∀ n b₂, Course bus b₁ n b₂ →
        (b₂.masters.get bus).polls = (b.masters.get bus).polls + UInt32.ofNat n.polls ∧
        (b₂.masters.get bus).yields = (b.masters.get bus).yields + UInt32.ofNat n.yields ∧
        ((∀ h, b₂.kernel.holder (.bus bus) = some h → b₂.kernel.isBound h = true) →
          ∃ b₃, runPoller bus b₂ = .ok () b₃) ∧
        (∀ b₃, (b₂.masters.get bus).phase = .poll → runPoller bus b₂ = .ok () b₃ →
          ∃ answers, b₃.kernel.looks bus = b₂.kernel.looks bus ++ answers ∧
            (b₂.masters.get bus).controller.Gave (b₃.masters.get bus).controller answers ∧
            answers.length ≤ budget ∧
            (((b₂.masters.get bus).poll b₂.memory).ending = .yielded →
              answers.length = budget)) ∧
        ∃ seen, b₂.kernel.looks bus = b.kernel.looks bus ++ seen ∧
          ∀ flag costs, Answers flag 0 seen → Costs flag 0 t.lengths costs →
            ((b₂.masters.get bus).status = .ok ↔
              n.polls + n.reloads = (costs.map (· ⌈/⌉ budget)).sum + turns) ∧
            ((b₂.masters.get bus).status = .ok →
              n.polls = (costs.map (· ⌈/⌉ budget)).sum ∧
              n.yields = (costs.map (· ⌈/⌉ budget - 1)).sum ∧
              n.reloads = turns ∧ seen.length = costs.sum) := by
  intro budget turns
  obtain ⟨b₁, started, busy, unseen, all_due⟩ := start_tracked bus b accepted
  refine ⟨b₁, started, busy, ?_⟩
  intro n b₂ course
  obtain ⟨seen, split, tracked⟩ := course.tracked all_due
  refine ⟨tracked.counts.polls, tracked.counts.yields, runPoller_ok tracked.bound, ?_, seen,
    split.trans (congrArg (· ++ seen) unseen), ?_⟩
  · intro b₃ phase ran
    have requeued := requeued_polled phase ran
    have cost := Master.run_cost b₂.memory (b₂.masters.get bus)
    have loops : (b₂.masters.get bus).budget.loops.toNat = budget := by
      rw [tracked.counts.budget]
    refine ⟨_, (requeued.aloof bus).looks.trans (looks_polled bus b₂), ?_, ?_, ?_⟩
    · rw [requeued.masters, masters_polled]
      exact cost.gave
    · exact cost.within.trans loops.le
    · intro yielded
      exact (cost.yielded yielded).1.trans loops
  · intro flag costs answers bill
    have length := bill.length
    have settled : (b₂.masters.get bus).status = .ok → n.polls = (costs.map (· ⌈/⌉ budget)).sum ∧
        n.yields = (costs.map (· ⌈/⌉ budget - 1)).sum ∧ n.reloads = turns ∧
        seen.length = costs.sum := by
      intro done
      obtain ⟨polls, yields, reloads, looks⟩ := tracked.paid done flag costs answers bill
      rw [length] at reloads
      exact ⟨polls, yields, reloads, looks⟩
    refine ⟨⟨?_, ?_⟩, settled⟩
    · intro done
      obtain ⟨polls, -, reloads, -⟩ := settled done
      rw [polls, reloads]
    · -- A transfer that is still in progress misses a run.
      intro enough
      by_contra going
      have busy₂ : (b₂.masters.get bus).status = .inProgress := by
        cases status : (b₂.masters.get bus).status with
        | ok => exact absurd status going
        | inProgress => rfl
      exact (tracked.short busy₂ answers bill).ne enough

/-- Runs with nothing in between are a course. -/
theorem Course.pollRuns {k : Nat} {b₀ : Board} (course : Course bus b₀ n b)
    (ran : pollRuns bus k b = some b') :
    ∃ n', Course bus b₀ n' b' ∧ n'.polls + n'.reloads = n.polls + n.reloads + k := by
  induction k generalizing b n with
  | zero =>
    cases ran
    exact ⟨n, course, rfl⟩
  | succ k ih =>
    rw [Board.pollRuns] at ran
    split at ran
    · rename_i busy
      split at ran
      · rename_i b₁ first
        cases phase : (b.masters.get bus).phase with
        | poll =>
          obtain ⟨n', course', sum⟩ := ih (course.polled busy phase first) ran
          refine ⟨n', course', ?_⟩
          rw [sum, Tally.polls_poll, Tally.reloads_poll]
          omega
        | reload =>
          obtain ⟨n', course', sum⟩ := ih (course.reloaded busy phase first) ran
          refine ⟨n', course', ?_⟩
          rw [sum, Tally.polls_reload, Tally.reloads_reload]
          omega
      · cases ran
    · cases ran

/-- Two bytes and an empty buffer, two looks a run and a flag set at every third look. The flag is
set for the second byte at the last look of a run, which is no yield. -/
theorem list_in_seven_runs :
    let bus : BusPlan :=
      { budget := ⟨2, by decide⟩, hardware := .scripted (fun n => n % 3 = 2) [] }
    let b := ({ buses := [bus] } : Plan).bootBoard
    ∃ b₁ b₂ n, Board.start 0 (.writeList [[1, 2], []]) b = .ok () b₁ ∧
      pollRuns 0 7 b₁ = some b₂ ∧ Course 0 b₁ n b₂ ∧ n.polls = 5 ∧ n.yields = 3 ∧ n.reloads = 2 ∧
      (b₂.masters.get 0).polls = 5 ∧ (b₂.masters.get 0).yields = 3 ∧
      (b₂.kernel.looks 0).length = 9 := by
  intro bus b
  obtain ⟨b₁, started, -, course⟩ := polling_cost_is_exact 0 b
    (t := .writeList [[1, 2], []]) (by decide)
  have seven : (Exec.after? (Board.start 0 (.writeList [[1, 2], []])) b).bind (fun b₁ =>
      (pollRuns 0 7 b₁).map fun b₂ => ((b₂.masters.get 0).status, b₂.kernel.looks 0)) =
      some (.ok, [false, false, true, false, false, true, false, false, true]) := by
    decide +kernel
  obtain ⟨b₁', started', seven⟩ := Option.bind_eq_some_iff.mp seven
  rw [Exec.of_after started'] at started
  cases started
  obtain ⟨b₂, ran, found⟩ := Option.map_eq_some_iff.mp seven
  obtain ⟨done, looks⟩ := Prod.mk.inj found
  obtain ⟨n, runs, -⟩ := Course.start.pollRuns ran
  obtain ⟨polls, yields, -, -, seen, split, bill⟩ := course n b₂ runs
  have first : b.kernel.looks 0 = [] := by decide +kernel
  rw [looks, first, List.nil_append] at split
  subst split
  have six : Answers (fun k => k % 3 = 2) 0 ([false, false, true, false, false] ++ [true]) := rfl
  have three : Answers (fun k => k % 3 = 2) 6 ([false, false] ++ [true]) := rfl
  have first_buffer : Takes (fun k => k % 3 = 2) 0 2 6 := six.takes rfl
  have second_buffer : Takes (fun k => k % 3 = 2) 6 1 3 := three.takes rfl
  obtain ⟨-, settled⟩ := bill (fun k => k % 3 = 2) [6, 3] rfl
    (.cons first_buffer (.cons second_buffer .nil))
  have loops : (b.masters.get 0).budget.loops.toNat = 2 := by decide +kernel
  obtain ⟨polled, yielded, turned, -⟩ := settled done
  rw [loops] at polled yielded
  have five : n.polls = 5 := polled.trans (by decide)
  have yields_three : n.yields = 3 := yielded.trans (by decide)
  refine ⟨b₁, b₂, n, Exec.of_after started', ran, runs, five, yields_three, turned, ?_, ?_, ?_⟩
  · rw [polls, five]
    decide +kernel
  · rw [yields, yields_three]
    decide +kernel
  · rw [looks]
    rfl

end CoopKernel.Board
