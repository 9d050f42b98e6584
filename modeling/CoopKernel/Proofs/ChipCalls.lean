import CoopKernel.Proofs.ChipTraffic
import CoopKernel.Proofs.TerminalPrints
import Mathlib.Data.Nat.Bitwise
import Mathlib.Tactic.IntervalCases

/-!
# Calls of a conversation with a chip

What one call of an identification says to the chip, for each step it may find,
and how it leaves the chip when the transfer it started is complete.
-/

namespace CoopKernel

namespace Flash

def pageSizes : List UInt32 := [256, 256, 256, 256, 256, 256, 512, 512, 1024]

variable {manufacturer device : UInt8}

theorem protected_eq (status : UInt8) :
    decide (status &&& protectBit ≠ 0) = status.toNat.testBit 1 := by
  have bit : (status &&& protectBit).toNat = (status.toNat.testBit 1).toNat * 2 := by
    rw [UInt8.toNat_and]
    exact Nat.and_two_pow status.toNat 1
  have zero : status &&& protectBit = 0 ↔ status.toNat.testBit 1 = false := by
    rw [← UInt8.toNat_inj, bit]
    cases status.toNat.testBit 1 <;> simp
  simp [zero]

theorem recognises_iff : recognises manufacturer device = true ↔
    manufacturer = 0x1f ∧ device &&& 0xe0 = 0x20 ∧
      2 ≤ density device ∧ density device ≤ 8 := by
  simp only [recognises, Bool.and_eq_true, decide_eq_true_eq, and_assoc]
  rfl

theorem sizeOf_toNat (few : density device ≤ 8) :
    (sizeOf device).toNat = 32 * 1024 * 2 ^ (density device).toNat := by
  have small : (density device).toNat ≤ 8 := few
  rw [sizeOf, UInt32.toNat_shiftLeft, UInt8.toNat_toUInt32]
  generalize (density device).toNat = n at small
  interval_cases n <;> rfl

/-- The table has a size for every density of the family. -/
theorem pageSizeOf_listed (few : density device ≤ 8) :
    ∃ size, pageSizeOf device = .ok size ∧ pageSizes[(density device).toNat]? = some size := by
  have small : (density device).toNat ≤ 8 := few
  rw [pageSizeOf]
  generalize (density device).toNat = n at small
  interval_cases n <;> exact ⟨_, rfl, rfl⟩

end Flash

def Chip.identified (manufacturer device : UInt8) (c : Chip) : Chip :=
  if Flash.recognises manufacturer device then
    { c with
      valid := true
      size := Flash.sizeOf device
      pageSize := Flash.pageSizes.getD (Flash.density device).toNat 0 }
  else { c with valid := false }

namespace Chip

variable {manufacturer device : UInt8}

theorem identified_step (c : Chip) : (c.identified manufacturer device).step = c.step := by
  rw [identified]
  split <;> rfl

theorem identified_device (c : Chip) :
    (c.identified manufacturer device).device = c.device := by
  rw [identified]
  split <;> rfl

theorem identified_protect (c : Chip) :
    (c.identified manufacturer device).protect = c.protect := by
  rw [identified]
  split <;> rfl

theorem identified_valid (c : Chip) :
    (c.identified manufacturer device).valid = Flash.recognises manufacturer device := by
  rw [identified]
  split
  · rename_i known
    rw [known]
  · rename_i unknown
    rw [Bool.not_eq_true] at unknown
    rw [unknown]

/-- A chip of the family gets the size and the page size of its density. -/
theorem identified_geometry (c : Chip) (known : Flash.recognises manufacturer device = true) :
    (c.identified manufacturer device).size.toNat =
        32 * 1024 * 2 ^ (Flash.density device).toNat ∧
      Flash.pageSizes[(Flash.density device).toNat]? =
        some (c.identified manufacturer device).pageSize := by
  obtain ⟨-, -, -, few⟩ := Flash.recognises_iff.mp known
  obtain ⟨size, -, table⟩ := Flash.pageSizeOf_listed few
  rw [identified, if_pos known]
  refine ⟨Flash.sizeOf_toNat few, ?_⟩
  rw [List.getD_eq_getElem?_getD, table]
  rfl

end Chip

namespace Device

/-- Selected, the chip is sent an opcode, and then as many zeros as it answers bytes. -/
def asked (d : Device) (opcode : UInt8) (n : Nat) : List ChipMark :=
  d.opening ++ .sent opcode :: List.replicate n (.sent 0)

def session (d : Device) (opcode : UInt8) (n : Nat) : List ChipMark :=
  d.asked opcode n ++ d.closing

theorem asked_more (d : Device) (opcode : UInt8) (n m : Nat) :
    d.asked opcode n ++ List.replicate m (.sent 0) = d.asked opcode (n + m) := by
  rw [asked, asked, List.append_assoc, List.cons_append, List.replicate_append_replicate]

theorem asked_snoc (d : Device) (opcode : UInt8) (n : Nat) :
    d.asked opcode n ++ [.sent 0] = d.asked opcode (n + 1) := d.asked_more opcode n 1

end Device

namespace Board

open Flash (Progress)

variable {b b' b₁ : Board} {i : Nat} {d : Device} {c c' : Chip}

@[simp] theorem chip_modifyChip (i : Nat) (f : Chip → Chip) (b : Board) :
    (b.modifyChip i f).chip i = f (b.chip i) := by
  rw [modifyChip, chip, Bank.get_modify, if_pos rfl, chip]

theorem dialogue_quiet (chip : b'.chip i = c) (trace : b'.kernel.trace = b.kernel.trace) :
    Dialogue i d c [] [] b b' where
  chip := chip
  marks := by rw [Kernel.marks, trace, List.append_nil, Kernel.marks]
  heard := by rw [Kernel.heard, Kernel.wires, trace, List.append_nil, Kernel.heard, Kernel.wires]

theorem dialogue_modifyChip (now : b.chip i = c) (f : Chip → Chip) :
    Dialogue i d (f c) [] [] b (b.modifyChip i f) :=
  dialogue_quiet (by rw [chip_modifyChip, now]) rfl

theorem dialogue_setStep (now : b.chip i = c) (step : Flash.Step) :
    Dialogue i d { c with step } [] [] b (setStep i step b) :=
  dialogue_modifyChip now ({ · with step })

theorem dialogue_select (now : b.chip i = c) :
    Dialogue i c.device c c.device.opening [] b (selectChip i b) where
  chip := now
  marks := by
    simp [selectChip, select, now, Kernel.marks, note, Kernel.note, modifyController, modifyMaster,
      Event.mark?, Device.opening]
  heard := by
    rw [List.append_nil]
    rfl

theorem dialogue_deselect (now : b.chip i = c) :
    Dialogue i c.device c c.device.closing [] b (deselectChip i b) where
  chip := now
  marks := by
    simp [deselectChip, deselect, now, Kernel.marks, note, Kernel.note, Event.mark?, Device.closing]
  heard := by
    rw [List.append_nil]
    rfl

theorem print_dialogue (now : b.chip i = c) (d : Device) (level : Level) (text : List String) :
    ∃ b', print level text b = .ok () b' ∧ Dialogue i d c [] [] b b' := by
  obtain ⟨cpu, terminal, printed⟩ := print_ok level text b
  exact ⟨_, printed, dialogue_quiet now rfl⟩

/-- The id bytes are taken over, whatever they are. -/
theorem recordId_ok (now : b.chip i = c) (d : Device) :
    ∃ b', recordId i b = .ok () b' ∧
      Dialogue i d (c.identified (b.scratch i 0) (b.scratch i 1)) [] [] b b' := by
  rw [recordId, Exec.get_bind]
  obtain ⟨b₁, printed, quiet⟩ := print_dialogue now d .info _
  rw [Exec.bind_ok printed, Chip.identified]
  cases known : Flash.recognises (b.scratch i 0) (b.scratch i 1) with
  | false =>
    have changed := dialogue_modifyChip (d := d) quiet.chip ({ · with valid := false })
    obtain ⟨b₂, warned, still⟩ := print_dialogue changed.chip d .warning
      ["at45_device: No valid dataflash detected!\n"]
    exact ⟨b₂, warned, (quiet.trans changed).trans still⟩
  | true =>
    obtain ⟨-, -, -, few⟩ := Flash.recognises_iff.mp known
    obtain ⟨size, listed, table⟩ := Flash.pageSizeOf_listed few
    have changed := dialogue_modifyChip (d := d) quiet.chip
      ({ · with valid := true, size := Flash.sizeOf (b.scratch i 1), pageSize := size })
    obtain ⟨b₂, told, still⟩ := print_dialogue changed.chip d .info
      (sizeMessage (Flash.sizeOf (b.scratch i 1)))
    obtain ⟨b₃, closed, last⟩ := print_dialogue still.chip d .info
      ["  Page size         : ", toString size, "\n"]
    refine ⟨b₃, ?_, ?_⟩
    · simp only [Bool.not_true, Bool.false_eq_true, if_false, listed]
      rw [Exec.modify_bind, Exec.bind_ok told, closed]
    · rw [if_pos rfl, List.getD_eq_getElem?_getD, table]
      exact ((quiet.trans changed).trans still).trans last

/-- The chip is selected and its status asked for. -/
theorem openConversation_converses (now : b.chip i = c) (step : Flash.Step) :
    ∃ b₁, openConversation i step b = .ok () b₁ ∧
      Converses i { c with step } (c.device.asked Flash.Opcode.status 0)
        (fun got _ => got.length = 1) b b₁ := by
  have stepped := dialogue_setStep (d := c.device) now step
  have selected := dialogue_select stepped.chip
  have framed := stepped.trans selected
  obtain ⟨b₁, started, conversed⟩ := sendScratch_converses framed.chip
    [Flash.Opcode.status] (by simp) (by simp)
  exact ⟨b₁, started, framed.converses conversed⟩

/-- The chip stays selected and its answer is read. -/
theorem fetch_converses (now : b.chip i = c) (step : Flash.Step) (n : Nat) (some : n ≠ 0)
    (fits : n ≤ 5) :
    ∃ b₁, readScratch i n (setStep i step b) = .ok () b₁ ∧
      Converses i { c with step } (List.replicate n (.sent 0))
        (fun got b₂ => got = (List.range n).map fun k => b₂.scratch i k) b b₁ := by
  have stepped := dialogue_setStep (d := c.device) now step
  obtain ⟨b₁, started, conversed⟩ := readScratch_converses stepped.chip n some fits
  exact ⟨b₁, started, stepped.converses conversed⟩

theorem identify_idle (now : b.chip i = c) (at_step : c.step = .idle) :
    ∃ b₁, identifyChip i b = .ok .pending b₁ ∧
      Converses i { c with step := .identifyFetchStatus } (c.device.asked Flash.Opcode.status 0)
        (fun got _ => got.length = 1) b b₁ := by
  obtain ⟨b₁, opened, conversed⟩ := openConversation_converses now .identifyFetchStatus
  refine ⟨b₁, ?_, conversed⟩
  rw [identifyChip, Exec.get_bind, now, at_step]
  exact Exec.bind_ok opened

theorem identify_fetchStatus (now : b.chip i = c) (at_step : c.step = .identifyFetchStatus) :
    ∃ b₁, identifyChip i b = .ok .pending b₁ ∧
      Converses i { c with step := .identifyGotStatus } [.sent 0]
        (fun got b₂ => got = [b₂.scratch i 0]) b b₁ := by
  obtain ⟨b₁, started, conversed⟩ := fetch_converses now .identifyGotStatus 1 (by simp) (by simp)
  refine ⟨b₁, ?_, conversed⟩
  rw [identifyChip, Exec.get_bind, now, at_step]
  exact Exec.bind_ok started

theorem identify_busy (now : b.chip i = c) (at_step : c.step = .identifyGotStatus)
    (busy : b.scratch i 0 &&& Flash.readyBit = 0) :
    ∃ b₁, identifyChip i b = .ok .pending b₁ ∧
      Converses i c [.sent 0] (fun got b₂ => got = [b₂.scratch i 0]) b b₁ := by
  obtain ⟨b₁, started, conversed⟩ := readScratch_converses now 1 (by simp) (by simp)
  refine ⟨b₁, ?_, conversed⟩
  rw [identifyChip, Exec.get_bind, now, at_step]
  simp only [Exec.get_bind, busy, if_true]
  exact Exec.bind_ok started

/-- The first ready status byte ends the first session, and the second one asks for the id. -/
theorem identify_ready (now : b.chip i = c) (at_step : c.step = .identifyGotStatus)
    (ready : b.scratch i 0 &&& Flash.readyBit ≠ 0) :
    ∃ b₁, identifyChip i b = .ok .pending b₁ ∧
      Converses i
        { c with protect := b.scratch i 0 &&& Flash.protectBit ≠ 0, step := .identifyFetchId }
        (c.device.closing ++ c.device.asked Flash.Opcode.id 0)
        (fun got _ => got.length = 1) b b₁ := by
  have closed := dialogue_deselect now
  obtain ⟨b₁, printed, still⟩ := print_dialogue closed.chip c.device .info
    (["at45_device: Status register: 0x"] ++ hexPieces (b.scratch i 0) ++ ["\n"])
  have changed := dialogue_modifyChip (d := c.device) still.chip
    ({ · with protect := b.scratch i 0 &&& Flash.protectBit ≠ 0, step := .identifyFetchId })
  have selected := dialogue_select changed.chip
  have framed := (closed.trans still).trans (changed.trans selected)
  obtain ⟨b₂, started, conversed⟩ := sendScratch_converses framed.chip
    [Flash.Opcode.id] (by simp) (by simp)
  refine ⟨b₂, ?_, ?_⟩
  · rw [identifyChip, Exec.get_bind, now, at_step]
    simp only [Exec.get_bind, if_neg ready, Exec.modify_bind]
    rw [Exec.bind_ok printed]
    exact Exec.bind_ok started
  · have whole := framed.converses conversed
    simpa [Device.asked] using whole

theorem identify_fetchId (now : b.chip i = c) (at_step : c.step = .identifyFetchId) :
    ∃ b₁, identifyChip i b = .ok .pending b₁ ∧
      Converses i { c with step := .identifyGotId } (List.replicate 4 (.sent 0))
        (fun got b₂ => got = (List.range 4).map fun k => b₂.scratch i k) b b₁ := by
  obtain ⟨b₁, started, conversed⟩ := fetch_converses now .identifyGotId 4 (by simp) (by simp)
  refine ⟨b₁, ?_, conversed⟩
  rw [identifyChip, Exec.get_bind, now, at_step]
  exact Exec.bind_ok started

theorem identify_gotId (now : b.chip i = c) (at_step : c.step = .identifyGotId) :
    ∃ b₁, identifyChip i b = .ok .done b₁ ∧
      Dialogue i c.device
        (({ c with step := .idle } : Chip).identified (b.scratch i 0) (b.scratch i 1))
        c.device.closing [] b b₁ := by
  have closed := dialogue_deselect now
  have stepped := dialogue_setStep (d := c.device) closed.chip .idle
  obtain ⟨b₁, recorded, told⟩ := recordId_ok stepped.chip c.device
  have kept : ∀ k, (setStep i .idle (deselectChip i b)).scratch i k = b.scratch i k := by
    intro k
    rw [scratch, stepped.chip, scratch, now]
    rfl
  rw [kept, kept] at told
  refine ⟨b₁, ?_, by simpa using (closed.trans stepped).trans told⟩
  rw [identifyChip, Exec.get_bind, now, at_step]
  exact Exec.bind_ok recorded

end Board

end CoopKernel
