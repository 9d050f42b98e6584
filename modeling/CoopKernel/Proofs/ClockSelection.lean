import CoopKernel.Spi.Clock
import Mathlib.Order.Bounds.Basic
import Mathlib.Tactic.IntervalCases

/-!
# The selected clock

A request is met with the fastest clock that does not exceed it, or with the
slowest clock when all exceed it. The step is found by halving the truncated
frequency, which is the same as dividing once and truncating once. A control
value is read back into the divider that it names, apart from how it was built.
-/

namespace CoopKernel.Spi.Clock

/-- The dividers of the controller, the fastest clock first. -/
def dividers : List Nat := [2, 4, 8, 16, 32, 64, 128]

def prescalerField : UInt8 := 0x03
def modeField : UInt8 := 0x0c

/-- What the prescaler field of a control value stands for. -/
def prescaler (control : UInt8) : Nat :=
  [4, 16, 64, 128].getD (control &&& prescalerField).toNat 0

/-- The divider that a control value names: the doubling bit halves every prescaler but 128. -/
def divider (control : UInt8) : Nat :=
  if control &&& doubleBit ≠ 0 ∧ prescaler control ≠ 128 then prescaler control / 2
  else prescaler control

/-- The dividers whose truncated clock does not exceed a request. -/
def allowed (cpuHz baud : UInt32) : Set Nat :=
  { d | d ∈ dividers ∧ cpuHz.toNat / d ≤ baud.toNat }

theorem mem_dividers {d : Nat} : d ∈ dividers ↔ ∃ i ≤ lastStep, d = 2 ^ (i + 1) := by
  constructor
  · intro mem
    simp only [dividers, List.mem_cons, List.not_mem_nil, or_false] at mem
    rcases mem with rfl | rfl | rfl | rfl | rfl | rfl | rfl
    · exact ⟨0, by decide, rfl⟩
    · exact ⟨1, by decide, rfl⟩
    · exact ⟨2, by decide, rfl⟩
    · exact ⟨3, by decide, rfl⟩
    · exact ⟨4, by decide, rfl⟩
    · exact ⟨5, by decide, rfl⟩
    · exact ⟨6, by decide, rfl⟩
  · rintro ⟨i, le, rfl⟩
    change i ≤ 6 at le
    interval_cases i <;> decide

/-- A clock that is halved once more and truncated again. -/
theorem halved_div (hz : UInt32) (i : Nat) :
    (hz >>> 1).toNat / 2 ^ i = hz.toNat / 2 ^ (i + 1) := by
  rw [UInt32.toNat_shiftRight, Nat.shiftRight_eq_div_pow, Nat.div_div_eq_div_mul, pow_succ']
  rfl

/-- By induction on the steps left: every step passed over is too fast, and the one found is not,
unless no step is left. -/
theorem stepFrom_first (baud : UInt32) (left start : Nat) (hz : UInt32) :
    ∃ n ≤ left, stepFrom baud left start hz = start + n ∧
      (∀ i < n, baud.toNat < hz.toNat / 2 ^ i) ∧ (n < left → hz.toNat / 2 ^ n ≤ baud.toNat) := by
  induction left generalizing start hz with
  | zero => exact ⟨0, le_rfl, rfl, fun i less => by omega, fun less => by omega⟩
  | succ left ih =>
    rw [stepFrom]
    split
    · rename_i fits
      refine ⟨0, Nat.zero_le _, rfl, fun i less => by omega, fun _ => ?_⟩
      rw [pow_zero, Nat.div_one]
      exact UInt32.le_iff_toNat_le.mp fits
    · rename_i fast
      obtain ⟨n, le, found, passed, stopped⟩ := ih (start + 1) (hz >>> 1)
      refine ⟨n + 1, by omega, by omega, fun i less => ?_, fun less => ?_⟩
      · cases i with
        | zero =>
          rw [pow_zero, Nat.div_one]
          exact UInt32.lt_iff_toNat_lt.mp (UInt32.not_le.mp fast)
        | succ i =>
          rw [← halved_div]
          exact passed i (by omega)
      · rw [← halved_div]
        exact stopped (by omega)

theorem step_first (cpuHz baud : UInt32) :
    step cpuHz baud ≤ lastStep ∧
      (∀ i < step cpuHz baud, baud.toNat < cpuHz.toNat / 2 ^ (i + 1)) ∧
      (step cpuHz baud < lastStep → cpuHz.toNat / 2 ^ (step cpuHz baud + 1) ≤ baud.toNat) := by
  obtain ⟨n, le, found, passed, stopped⟩ := stepFrom_first baud lastStep 0 (cpuHz >>> 1)
  rw [Nat.zero_add] at found
  rw [step, found]
  simp only [halved_div] at passed stopped
  exact ⟨le, passed, stopped⟩

/-- The divider of the step that is found. -/
theorem isLeast_step (cpuHz baud : UInt32) :
    IsLeast (allowed cpuHz baud) (2 ^ (step cpuHz baud + 1)) ∨
      allowed cpuHz baud = ∅ ∧ step cpuHz baud = lastStep := by
  obtain ⟨le, passed, stopped⟩ := step_first cpuHz baud
  -- No divider below the one that is found is allowed.
  have above : ∀ i, 2 ^ (i + 1) ∈ allowed cpuHz baud → step cpuHz baud ≤ i := by
    rintro i ⟨-, fits⟩
    by_contra less
    exact absurd fits (Nat.not_le.mpr (passed i (by omega)))
  by_cases fits : cpuHz.toNat / 2 ^ (step cpuHz baud + 1) ≤ baud.toNat
  · refine Or.inl ⟨⟨mem_dividers.mpr ⟨_, le, rfl⟩, fits⟩, ?_⟩
    intro d among
    obtain ⟨i, -, rfl⟩ := mem_dividers.mp among.1
    exact Nat.pow_le_pow_right (by decide) (Nat.succ_le_succ (above i among))
  · have last : step cpuHz baud = lastStep :=
      Nat.le_antisymm le (Nat.not_lt.mp fun less => fits (stopped less))
    refine Or.inr ⟨Set.eq_empty_iff_forall_notMem.mpr fun d among => ?_, last⟩
    obtain ⟨i, below, rfl⟩ := mem_dividers.mp among.1
    have same : i = step cpuHz baud := Nat.le_antisymm (last ▸ below) (above i among)
    exact fits (same ▸ among.2)

theorem divider_encoded (mode : Mode) {step : Nat} (le : step ≤ lastStep) :
    divider (enableBit ||| masterBit ||| (mode.bits <<< 2) ||| prescalerBits step) =
      2 ^ (step + 1) := by
  change step ≤ 6 at le
  interval_cases step <;> cases mode <;> rfl

theorem divider_control (cpuHz : UInt32) (mode : Mode) (baud : UInt32) :
    divider (control cpuHz mode baud) = 2 ^ (step cpuHz baud + 1) :=
  divider_encoded mode (step_first cpuHz baud).1

/-- Besides the doubling bit and the prescaler, a control value holds the two fixed bits and the
mode, and nothing else. -/
theorem fields_encoded (mode : Mode) {step : Nat} (le : step ≤ lastStep) :
    let c := enableBit ||| masterBit ||| (mode.bits <<< 2) ||| prescalerBits step
    c &&& enableBit = enableBit ∧ c &&& masterBit = masterBit ∧
      (c &&& modeField) >>> 2 = mode.bits ∧
      c &&& ~~~(enableBit ||| masterBit ||| modeField ||| doubleBit ||| prescalerField) = 0 := by
  change step ≤ 6 at le
  interval_cases step <;> cases mode <;> decide

theorem divider_anti {cpuHz baud baud' : UInt32} (le : baud' ≤ baud) (mode mode' : Mode) :
    divider (control cpuHz mode baud) ≤ divider (control cpuHz mode' baud') := by
  rw [divider_control, divider_control]
  rcases isLeast_step cpuHz baud' with ⟨⟨mem, fits⟩, -⟩ | ⟨-, last⟩
  · have wider : 2 ^ (step cpuHz baud' + 1) ∈ allowed cpuHz baud :=
      ⟨mem, fits.trans (UInt32.le_iff_toNat_le.mp le)⟩
    rcases isLeast_step cpuHz baud with ⟨-, least⟩ | ⟨nothing, -⟩
    · exact least wider
    · rw [nothing] at wider
      cases wider
  · rw [last]
    exact Nat.pow_le_pow_right (by decide) (Nat.succ_le_succ (step_first cpuHz baud).1)

/-- The divider of a control value is the smallest one whose truncated clock does not exceed the
request, and 128 if there is none. So no request from the slowest clock on is exceeded, and a lower
request never gets a smaller divider. The value enables the controller as the master in the mode
asked for, and sets no bit besides. -/
theorem selected_clock_is_the_fastest_allowed (cpuHz : UInt32) (mode : Mode) (baud : UInt32) :
    let c := control cpuHz mode baud
    (IsLeast (allowed cpuHz baud) (divider c) ∨ allowed cpuHz baud = ∅ ∧ divider c = 128) ∧
      (cpuHz.toNat / 128 ≤ baud.toNat → cpuHz.toNat / divider c ≤ baud.toNat) ∧
      (∀ mode' baud', baud' ≤ baud → divider c ≤ divider (control cpuHz mode' baud')) ∧
      c &&& enableBit = enableBit ∧ c &&& masterBit = masterBit ∧
      (c &&& modeField) >>> 2 = mode.bits ∧
      c &&& ~~~(enableBit ||| masterBit ||| modeField ||| doubleBit ||| prescalerField) = 0 := by
  intro c
  have selected : IsLeast (allowed cpuHz baud) (divider c) ∨
      allowed cpuHz baud = ∅ ∧ divider c = 128 := by
    rw [divider_control]
    exact (isLeast_step cpuHz baud).imp_right fun ⟨nothing, last⟩ => ⟨nothing, by rw [last]; rfl⟩
  refine ⟨selected, fun reachable => ?_, fun mode' baud' le => divider_anti le mode mode',
    fields_encoded mode (step_first cpuHz baud).1⟩
  rcases selected with ⟨among, -⟩ | ⟨nothing, -⟩
  · exact among.2
  · have slowest : 128 ∈ allowed cpuHz baud := ⟨by decide, reachable⟩
    rw [nothing] at slowest
    cases slowest

/-- A CPU clock that is no multiple of the dividers: 999 Hz are allowed by 16 and not by 8, and
asking for 998 Hz gets no smaller divider. -/
theorem truncated_clock_meets_the_request :
    divider (control 15999 .mode3 999) = 16 ∧ 15999 / 128 ≤ 999 ∧ 15999 / 16 ≤ 999 ∧
      divider (control 15999 .mode3 999) ≤ divider (control 15999 .mode0 998) := by
  obtain ⟨-, meets, slower, -⟩ := selected_clock_is_the_fastest_allowed 15999 .mode3 999
  have divides : divider (control 15999 .mode3 999) = 16 := by decide
  rw [divides] at meets slower ⊢
  exact ⟨rfl, by decide, meets (by decide), slower .mode0 998 (by decide)⟩

end CoopKernel.Spi.Clock
