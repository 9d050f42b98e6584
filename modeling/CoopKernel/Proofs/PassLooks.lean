import CoopKernel.Proofs.BusRun

/-!
# Looks at the ready flag

What one run of a poll task spends of its budget. Each look answers whether the
flag is set; each look that finds it set moves one byte. A run ends at the look
that moves the last byte of the buffer, or when the budget is spent.
-/

namespace CoopKernel

theorem PollBudget.loops_pos (budget : PollBudget) : 0 < budget.loops.toNat := by
  apply Nat.pos_of_ne_zero
  intro zero
  exact budget.loops_ne_zero (UInt16.toNat_inj.mp zero)

namespace Wire

def looks : Wire → List Bool
  | checked misses hit => List.replicate misses false ++ if hit then [true] else []
  | _ => []

def looksOf (wires : List Wire) : List Bool := wires.flatMap looks

@[simp] theorem looksOf_append (ws more : List Wire) :
    looksOf (ws ++ more) = looksOf ws ++ looksOf more := List.flatMap_append

end Wire

def Kernel.looks (bus : Nat) (k : Kernel) : List Bool := Wire.looksOf (k.wires bus)

namespace Spi

open Wire (looksOf)

/-- These are the answers of the flag from look `o` on. -/
def Answers (flag : Nat → Bool) (o : Nat) (answers : List Bool) : Prop :=
  answers = (List.range answers.length).map fun k => flag (o + k)

variable {flag : Nat → Bool} {o : Nat} {seen answers more : List Bool}

theorem Answers.split (h : Answers flag o (seen ++ answers)) :
    Answers flag o seen ∧ Answers flag (o + seen.length) answers := by
  rw [Answers, List.length_append, List.range_add, List.map_append, List.map_map] at h
  obtain ⟨first, second⟩ := List.append_inj h (by simp)
  refine ⟨first, second.trans ?_⟩
  simp only [Function.comp_def, Nat.add_assoc]

theorem Answers.append (h : Answers flag o seen) (h' : Answers flag (o + seen.length) answers) :
    Answers flag o (seen ++ answers) := by
  have first : (List.range seen.length).map (fun k => flag (o + k)) = seen := h.symm
  have second : (List.range answers.length).map (fun k => flag (o + seen.length + k)) = answers :=
    h'.symm
  rw [Answers, List.length_append, List.range_add, List.map_append, List.map_map, first]
  simp only [Function.comp_def, ← Nat.add_assoc, second]

namespace Controller

variable {c c' : Controller}

def ready (c : Controller) : Nat → Bool :=
  match c.hardware with
  | .scripted answers _ => answers
  | .registers _ file => fun _ => file.isReady

structure Gave (c c' : Controller) (answers : List Bool) : Prop where
  ready : c'.ready = c.ready
  checks : c'.checks = c.checks + answers.length
  answers : Answers c.ready c.checks answers

theorem Gave.unseen (ready : c'.ready = c.ready) (checks : c'.checks = c.checks) : c.Gave c' [] :=
  ⟨ready, checks, rfl⟩

theorem Gave.trans {c'' : Controller} (h : c.Gave c' seen) (h' : c'.Gave c'' answers) :
    c.Gave c'' (seen ++ answers) := by
  have later := h'.answers
  rw [h.ready, h.checks] at later
  refine ⟨h'.ready.trans h.ready, ?_, h.answers.append later⟩
  rw [h'.checks, h.checks, List.length_append, Nat.add_assoc]

theorem isReady_eq (c : Controller) : c.isReady = c.ready c.checks := by
  rw [isReady, ready]
  split <;> rename_i same <;> simp only [same]

/-- One look at the flag. -/
theorem gave_look (c : Controller) :
    c.Gave { c with checks := c.checks + 1 } [c.isReady] :=
  ⟨rfl, rfl, by simp [Answers, isReady_eq]⟩

theorem gave_read (c : Controller) : c.Gave c.read.2 [] := by
  refine .unseen ?_ ?_
  · cases hardware : c.hardware <;> simp [read, ready, hardware]
  · rw [read]
    split <;> rfl

theorem gave_write (byte : UInt8) (c : Controller) : c.Gave (c.write byte) [] := by
  refine .unseen ?_ ?_
  · cases hardware : c.hardware <;> simp [write, ready, hardware, Registers.isReady]
  · rw [write]
    split <;> rfl

/-- By induction on the looks left: all but the last one find the flag unset. -/
theorem await_gave (c : Controller) (misses left : Nat) :
    let w := c.await misses left
    ∃ n, w.misses = misses + n ∧
      (w.hit = true → n + 1 + w.left = left ∧
        c.Gave w.controller (List.replicate n false ++ [true])) ∧
      (w.hit = false → n = left ∧ w.left = 0 ∧ c.Gave w.controller (List.replicate n false)) := by
  induction left generalizing c misses with
  | zero =>
    exact ⟨0, rfl, fun hit => (by cases hit), fun _ => ⟨rfl, rfl, .unseen rfl rfl⟩⟩
  | succ left ih =>
    rw [await]
    split
    · rename_i set
      refine ⟨0, rfl, fun _ => ⟨by simp only; omega, ?_⟩, fun missed => by cases missed⟩
      have looked := c.gave_look
      rw [set] at looked
      exact looked
    · rename_i unset
      have looked := c.gave_look
      rw [Bool.eq_false_iff.mpr unset] at looked
      obtain ⟨n, misses', found, missed⟩ := ih { c with checks := c.checks + 1 } (misses + 1)
      refine ⟨n + 1, by omega, fun hit => ?_, fun none_hit => ?_⟩
      · obtain ⟨sum, gave⟩ := found hit
        exact ⟨by omega, looked.trans gave⟩
      · obtain ⟨all, nothing, gave⟩ := missed none_hit
        exact ⟨by omega, nothing, looked.trans gave⟩

end Controller

namespace Pass

variable {lanes : Lanes} {p p' : Pass}

/-- From one pass to another the flag gave these answers, each against the budget. -/
structure Looked (p p' : Pass) (answers : List Bool) : Prop where
  gave : p.controller.Gave p'.controller answers
  noted : looksOf p'.wires.reverse = looksOf p.wires.reverse ++ answers
  spent : answers.length + p'.left = p.left

theorem Looked.refl (p : Pass) : p.Looked p [] := ⟨.unseen rfl rfl, by simp, by simp⟩

theorem Looked.trans {p'' : Pass} (h : p.Looked p' answers) (h' : p'.Looked p'' more) :
    p.Looked p'' (answers ++ more) := by
  refine ⟨h.gave.trans h'.gave, ?_, ?_⟩
  · rw [h'.noted, h.noted, List.append_assoc]
  · have first := h.spent
    have second := h'.spent
    rw [List.length_append]
    omega

/-- Waiting for a byte: the budget goes down to nothing, or the last look finds the flag set. -/
theorem receive_looked (p : Pass) :
    (∃ p', p.receive = (none, p') ∧ p'.left = 0 ∧ p'.remaining = p.remaining ∧
      p.Looked p' (List.replicate p.left false)) ∨
    ∃ byte p' misses, p.receive = (some byte, p') ∧ p'.remaining = p.remaining ∧
      p.Looked p' (List.replicate misses false ++ [true]) := by
  obtain ⟨n, misses, found, missed⟩ := p.controller.await_gave 0 p.left
  rw [Nat.zero_add] at misses
  cases hit : (p.controller.await 0 p.left).hit with
  | false =>
    obtain ⟨all, nothing, gave⟩ := missed hit
    rw [all] at misses gave
    refine Or.inl ⟨{ p with
      left := (p.controller.await 0 p.left).left
      controller := (p.controller.await 0 p.left).controller
      wires := .checked (p.controller.await 0 p.left).misses false :: p.wires },
      ?_, nothing, rfl, gave, ?_, ?_⟩
    · simp [receive, hit]
    · simp [Wire.looksOf, Wire.looks, misses]
    · simp [nothing]
  | true =>
    obtain ⟨sum, gave⟩ := found hit
    have read := gave.trans (Controller.gave_read _)
    rw [List.append_nil] at read
    refine Or.inr ⟨(p.controller.await 0 p.left).controller.read.1, { p with
      left := (p.controller.await 0 p.left).left
      controller := (p.controller.await 0 p.left).controller.read.2
      wires := .rx (p.controller.await 0 p.left).controller.read.1 ::
        .checked (p.controller.await 0 p.left).misses true :: p.wires },
      n, ?_, rfl, read, ?_, ?_⟩
    · simp [receive, hit]
    · simp [Wire.looksOf, Wire.looks, misses]
    · simp only [List.length_append, List.length_replicate, List.length_singleton]
      omega

/-- Sending a byte and moving the cursors costs nothing. -/
theorem looked_step (lanes : Lanes) (out received : UInt8) (p : Pass) :
    p.Looked (((p.transmit out).keep lanes received).step lanes) [] := by
  rw [keep_eq]
  exact ⟨p.controller.gave_write out, by simp [step, transmit, Wire.looksOf, Wire.looks],
    by simp [step, transmit]⟩

/-- By induction on the bytes to shift: each takes one look that finds the flag set. -/
theorem shift_looked (lanes : Lanes) (n : Nat) (p : Pass) :
    ∃ answers, p.Looked (p.shift lanes n).2 answers ∧
      (p.shift lanes n).2.remaining = p.remaining - answers.count true ∧
      ((p.shift lanes n).1 = true → answers.count true = n) ∧
      ((p.shift lanes n).1 = false → answers.count true < n ∧ (p.shift lanes n).2.left = 0) := by
  induction n generalizing p with
  | zero => exact ⟨[], .refl p, rfl, fun _ => rfl, fun stopped => by cases stopped⟩
  | succ n ih =>
    rcases p.receive_looked with ⟨p₁, waited, nothing, still, looked⟩ |
      ⟨byte, p₁, misses, received, still, looked⟩
    · simp only [shift, waited]
      refine ⟨_, looked, ?_, fun done => (by cases done), fun _ => ⟨?_, nothing⟩⟩
      · simp [still, List.count_replicate]
      · simp [List.count_replicate]
    · simp only [shift, received]
      have stepped := looked_step lanes (p.upcoming lanes) byte p₁
      obtain ⟨answers, more, left, through, stopped⟩ :=
        ih (((p₁.transmit (p.upcoming lanes)).keep lanes byte).step lanes)
      have one : (List.replicate misses false ++ [true] ++ [] ++ answers).count true =
          answers.count true + 1 := by
        simp [List.count_append, List.count_replicate]
      refine ⟨_, (looked.trans stepped).trans more, ?_, fun done => ?_, fun out => ?_⟩
      · have fewer : (((p₁.transmit (p.upcoming lanes)).keep lanes byte).step lanes).remaining =
            p.remaining - 1 := by
          rw [keep_eq, ← still]
          rfl
        rw [left, one, fewer]
        omega
      · rw [one, through done]
      · obtain ⟨few, nothing⟩ := stopped out
        exact ⟨by rw [one]; omega, nothing⟩

/-- A run that gets through ends with the look that finds the flag set for the last byte. One that
does not has spent its budget. An empty buffer takes one byte as well. -/
theorem run_looked (lanes : Lanes) (p : Pass) :
    ∃ answers, p.Looked (p.run lanes).2 answers ∧
      ((p.run lanes).1 = true →
        ∃ before, answers = before ++ [true] ∧ answers.count true = max p.remaining 1) ∧
      ((p.run lanes).1 = false → (p.run lanes).2.left = 0 ∧
        max (p.run lanes).2.remaining 1 + answers.count true = max p.remaining 1) := by
  obtain ⟨answers, looked, remaining, through, stopped⟩ := shift_looked lanes (p.remaining - 1) p
  rcases shifted : p.shift lanes (p.remaining - 1) with ⟨complete, p₁⟩
  rw [shifted] at looked remaining through stopped
  have rest : p₁.remaining = p.remaining - answers.count true := remaining
  simp only [run, shifted]
  cases complete with
  | false =>
    obtain ⟨few, nothing⟩ := stopped rfl
    refine ⟨answers, looked, fun done => (by cases done), fun _ => ⟨nothing, ?_⟩⟩
    simp only [rest]
    omega
  | true =>
    have all := through rfl
    rcases p₁.receive_looked with ⟨p₂, waited, nothing, still, more⟩ |
      ⟨byte, p₂, misses, received, still, more⟩
    · simp only [waited]
      refine ⟨_, looked.trans more, fun done => (by cases done), fun _ => ⟨nothing, ?_⟩⟩
      have none_more : (answers ++ List.replicate p₁.left false).count true =
          answers.count true := by
        simp [List.count_replicate]
      rw [none_more, still, rest, all]
      omega
    · simp only [received]
      have kept : p₂.Looked (p₂.keep lanes byte) [] := by
        rw [keep_eq]
        exact ⟨.unseen rfl rfl, by simp, by simp⟩
      refine ⟨_, (looked.trans more).trans kept, fun _ =>
        ⟨answers ++ List.replicate misses false, ?_, ?_⟩, fun out => by cases out⟩
      · rw [List.append_nil, List.append_assoc]
      · simp [List.count_append, List.count_replicate, all]
        omega

end Pass

namespace Master

variable {m : Master} {memory : Memory}

def looksOfRun (memory : Memory) (m : Master) : List Bool :=
  looksOf (m.poll memory).wires.reverse

structure RunCost (memory : Memory) (m : Master) : Prop where
  gave : m.controller.Gave (m.poll memory).master.controller (m.looksOfRun memory)
  within : (m.looksOfRun memory).length ≤ m.budget.loops.toNat
  polls : (m.poll memory).master.polls = m.polls + 1
  yields : (m.poll memory).master.yields =
    if (m.poll memory).ending = .yielded then m.yields + 1 else m.yields
  budget : (m.poll memory).master.budget = m.budget
  lanes : (m.poll memory).master.lanes = m.lanes
  lists : (m.poll memory).master.readList = m.readList ∧
    (m.poll memory).master.writeList = m.writeList
  yielded : (m.poll memory).ending = .yielded →
    (m.looksOfRun memory).length = m.budget.loops.toNat ∧
      (m.poll memory).master.status = m.status ∧ (m.poll memory).master.phase = m.phase ∧
      max (m.poll memory).master.remaining 1 + (m.looksOfRun memory).count true =
        max m.remaining 1
  through : (m.poll memory).ending ≠ .yielded →
    ∃ before, m.looksOfRun memory = before ++ [true] ∧
      (m.looksOfRun memory).count true = max m.remaining 1
  bufferDone : (m.poll memory).ending = .bufferDone →
    m.lanes.list = true ∧ (m.poll memory).master.status = m.status ∧
      (m.poll memory).master.phase = .reload
  transferDone : (m.poll memory).ending = .transferDone →
    m.lanes.list = false ∧ (m.poll memory).master.status = .ok ∧
      (m.poll memory).master.phase = m.phase

/-- What a run of the poll task costs, and what it leaves to pay for. -/
theorem run_cost (memory : Memory) (m : Master) : m.RunCost memory := by
  obtain ⟨answers, looked, through, stopped⟩ := Pass.run_looked m.lanes (m.pass memory)
  rcases ran : (m.pass memory).run m.lanes with ⟨complete, p⟩
  rw [ran] at looked through stopped
  obtain rfl : answers = looksOf p.wires.reverse := by
    simpa [pass, looksOf] using looked.noted.symm
  have gave : m.controller.Gave p.controller (looksOf p.wires.reverse) := looked.gave
  have spent : (looksOf p.wires.reverse).length + p.left = m.budget.loops.toNat := looked.spent
  have within : (looksOf p.wires.reverse).length ≤ m.budget.loops.toNat := by omega
  cases complete with
  | false =>
    obtain ⟨nothing, rest⟩ := stopped rfl
    have all : (looksOf p.wires.reverse).length = m.budget.loops.toNat := by
      rw [← spent, nothing]
      rfl
    constructor
    all_goals simp only [looksOfRun, Master.poll, ran]
    case gave => exact gave
    case within => exact within
    case yielded => exact fun _ => ⟨all, rfl, rfl, rest⟩
    case through => exact fun other => absurd rfl other
    case bufferDone => exact fun other => by cases other
    case transferDone => exact fun other => by cases other
    all_goals simp
  | true =>
    cases list : m.lanes.list with
    | true =>
      constructor
      all_goals simp only [looksOfRun, Master.poll, ran, list]
      case gave => exact gave
      case within => exact within
      case through => exact fun _ => through rfl
      case yielded => exact fun other => by cases other
      case transferDone => exact fun other => by cases other
      all_goals simp
    | false =>
      constructor
      all_goals simp only [looksOfRun, Master.poll, ran, list]
      case gave => exact gave
      case within => exact within
      case through => exact fun _ => through rfl
      case yielded => exact fun other => by cases other
      case bufferDone => exact fun other => by cases other
      all_goals simp [finish]

end Master

end Spi

end CoopKernel
