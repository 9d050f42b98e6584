import CoopKernel.Proofs.Underway

/-!
# A transfer under way through one run of the poll task

A run may stop at any look at the ready flag. Wherever it stops, the cursors it
leaves stand for the beats still to come, and the byte in flight is the one the
read cursor waits for.
-/

namespace CoopKernel.Spi

variable {kept : Nat → Prop} {start memory : Memory} {plan later : List Beat}
variable {wires earlier : List Wire} {lanes : Lanes}

namespace Pass

def ahead (lanes : Lanes) (p : Pass) : List Beat :=
  line lanes (p.remaining - 1) p.write (lanes.filled p.read)

def Carries (kept : Nat → Prop) (start : Memory) (plan : List Beat) (earlier : List Wire)
    (later : List Beat) (lanes : Lanes) (p : Pass) : Prop :=
  Underway kept start plan (earlier ++ p.wires.reverse) p.memory (some (lanes.into p.read))
    (p.ahead lanes ++ later)

/-- The flag is found set at last, and the byte is read, or the budget runs out before. -/
theorem receive_cases (p : Pass) : ∃ misses left controller,
    p.receive = (none, { p with left, controller, wires := .checked misses false :: p.wires }) ∨
    ∃ byte, p.receive =
      (some byte,
        { p with left, controller, wires := .rx byte :: .checked misses true :: p.wires }) := by
  let w := p.controller.await 0 p.left
  cases hit : w.hit with
  | false =>
    refine ⟨w.misses, w.left, w.controller, Or.inl ?_⟩
    simp only [receive, w, hit, Bool.false_eq_true, if_false]
  | true =>
    refine ⟨w.misses, w.left, w.controller.read.2, Or.inr ⟨w.controller.read.1, ?_⟩⟩
    simp only [receive, w, hit, if_true]

theorem keep_eq (lanes : Lanes) (byte : UInt8) (p : Pass) :
    p.keep lanes byte =
      { p with
        memory := deposit p.memory (lanes.into p.read) byte
        read := lanes.filled p.read } := by
  obtain ⟨controller, memory, remaining, ⟨start, length⟩, write, left, wires⟩ := p
  cases hr : lanes.read with
  | false => simp [keep, hr, Lanes.into, Lanes.filled, deposit]
  | true =>
    cases length <;> simp [keep, hr, Lanes.into, Lanes.filled, deposit, Span.first?, Span.rest]

theorem upcoming_eq (lanes : Lanes) (p : Pass) :
    p.upcoming lanes = (lanes.out p.write).value p.memory := by
  rw [upcoming, Lanes.out]
  split
  · exact (value_next p.write p.memory).symm
  · rfl

/-- By induction on the bytes to shift: each costs one step of the transfer, and a run that
gets through has only the byte in flight left. -/
theorem Carries.shift (covers : Covers kept plan) (n : Nat) {p : Pass}
    (left : p.remaining - 1 = n) (h : p.Carries kept start plan earlier later lanes) :
    (p.shift lanes n).2.Carries kept start plan earlier later lanes ∧
      ((p.shift lanes n).1 = true → (p.shift lanes n).2.ahead lanes = []) := by
  induction n generalizing p with
  | zero =>
    refine ⟨h, fun _ => ?_⟩
    change line lanes (p.remaining - 1) _ _ = []
    rw [left, line]
  | succ n ih =>
    obtain ⟨misses, budget, controller, waited | ⟨byte, received⟩⟩ := p.receive_cases
    · simp only [Pass.shift, waited]
      refine ⟨?_, fun done => by cases done⟩
      have checked := Underway.checked h misses false
      simpa [Carries, ahead] using checked
    · simp only [Pass.shift, received]
      refine ih ?_ ?_
      · rw [keep_eq]
        simp only [Pass.step, transmit]
        omega
      · have next : p.ahead lanes = ⟨lanes.out p.write, lanes.into (lanes.filled p.read)⟩ ::
            line lanes n (lanes.sent p.write) (lanes.filled (lanes.filled p.read)) := by
          rw [ahead, left, line]
        have start' := Underway.checked h misses true
        rw [next, List.cons_append] at start'
        have stepped := start'.step covers byte
        have left' : p.remaining - 1 - 1 = n := by omega
        simp only [Carries, ahead, keep_eq, Pass.step, transmit, left', upcoming_eq]
        simpa [Lanes.sent] using stepped

/-- A run that does not get through leaves the transfer where the next one takes it up. -/
theorem Carries.run (covers : Covers kept plan) {p : Pass}
    (h : p.Carries kept start plan earlier later lanes) :
    ((p.run lanes).1 = false → (p.run lanes).2.Carries kept start plan earlier later lanes) ∧
      ((p.run lanes).1 = true → Underway kept start plan
        (earlier ++ (p.run lanes).2.wires.reverse) (p.run lanes).2.memory none later) := by
  obtain ⟨carries, through⟩ := h.shift covers _ rfl
  rcases shifted : p.shift lanes (p.remaining - 1) with ⟨complete, p'⟩
  rw [shifted] at carries through
  simp only [Pass.run, shifted]
  cases complete with
  | false => exact ⟨fun _ => carries, fun done => by cases done⟩
  | true =>
    have none_ahead := through rfl
    obtain ⟨misses, budget, controller, waited | ⟨byte, received⟩⟩ := p'.receive_cases
    · simp only [waited]
      have checked := Underway.checked carries misses false
      refine ⟨fun _ => ?_, fun done => by cases done⟩
      simpa [Carries, ahead] using checked
    · simp only [received, keep_eq]
      have checked := Underway.checked carries misses true
      rw [none_ahead] at checked
      have landed := checked.land byte
      refine ⟨fun stopped => (by cases stopped), fun _ => ?_⟩
      simpa using landed

end Pass

end CoopKernel.Spi
