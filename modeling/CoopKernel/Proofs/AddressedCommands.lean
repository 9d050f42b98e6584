import CoopKernel.Proofs.ChipTraffic
import Mathlib.Data.Nat.Bitwise

/-!
# Addressed commands on the wire

An address is a number of 24 bits: 13 bits of page, then 11 bits of position. It
is put together by shifts in 16 bits and cut into bytes, so both fields lie
across a byte boundary. The bytes then wait in the scratch cells, which the poll
task reads one by one as it sends them.
-/

namespace CoopKernel

open Spi

namespace Flash

/-- Nothing of a number lies beyond a mask of `n` ones. -/
theorem and_not_mask_eq_zero {x mask : UInt16} {n : Nat} (ones : mask.toNat = 2 ^ n - 1) :
    x &&& ~~~ mask = 0 ↔ x.toNat < 2 ^ n := by
  have low : (x &&& mask).toNat = x.toNat % 2 ^ n := by
    rw [UInt16.toNat_and, ones, Nat.and_two_pow_sub_one_eq_mod]
  have parts : x = x &&& mask ||| x &&& ~~~ mask := by
    apply UInt16.eq_of_toBitVec_eq
    ext i
    cases bit : x.toBitVec[i] <;> simp [bit]
  have apart : x &&& mask &&& ~~~ mask = 0 := by
    apply UInt16.eq_of_toBitVec_eq
    ext i
    simp
  constructor
  · intro clear
    rw [clear, UInt16.or_zero] at parts
    rw [parts, low]
    exact Nat.mod_lt _ (Nat.two_pow_pos n)
  · intro small
    have same : x &&& mask = x := by
      rw [← UInt16.toNat_inj, low, Nat.mod_eq_of_lt small]
    rwa [same] at apart

/-- The three bytes of an address, the most significant first. -/
def addressBytes (page position : UInt16) : List UInt8 :=
  [(page >>> 5).toUInt8, ((page <<< 3) ||| (position >>> 8)).toUInt8, position.toUInt8]

/-- The number that bytes spell, the most significant first. -/
def number (bytes : List UInt8) : Nat := bytes.foldl (fun n byte => n * 2 ^ 8 + byte.toNat) 0

/-- The fields do not overlap, so they are added; the page loses nothing to the left. -/
theorem toNat_middle {page position : UInt16} (page_fits : page.toNat < 2 ^ 13)
    (position_fits : position.toNat < 2 ^ 11) :
    ((page <<< 3) ||| (position >>> 8)).toNat = page.toNat * 2 ^ 3 + position.toNat / 2 ^ 8 := by
  have shifted : (page <<< 3).toNat = page.toNat <<< 3 := by
    simp [Nat.shiftLeft_eq]
    omega
  have upper : (position >>> 8).toNat = position.toNat / 2 ^ 8 := by
    simp [Nat.shiftRight_eq_div_pow]
  have narrow : position.toNat / 2 ^ 8 < 2 ^ 3 := by omega
  rw [UInt16.toNat_or, shifted, upper, ← Nat.shiftLeft_add_eq_or_of_lt narrow, Nat.shiftLeft_eq]

theorem number_addressBytes {page position : UInt16} (page_fits : page.toNat < 2 ^ 13)
    (position_fits : position.toNat < 2 ^ 11) :
    number (addressBytes page position) = page.toNat * 2 ^ 11 + position.toNat := by
  have high : (page >>> 5).toNat = page.toNat / 2 ^ 5 := by
    simp [Nat.shiftRight_eq_div_pow]
  have middle := toNat_middle page_fits position_fits
  simp only [number, addressBytes, List.foldl_cons, List.foldl_nil, UInt16.toNat_toUInt8, high,
    middle]
  omega

namespace Command

def opcode : Command → UInt8
  | arrayRead .. => Opcode.arrayRead
  | bufferWrite _ => Opcode.bufferWrite
  | pageToBuffer _ => Opcode.pageToBuffer
  | program _ => Opcode.program

def page? : Command → Option UInt16
  | arrayRead page _ | pageToBuffer page | program page => some page
  | bufferWrite _ => none

def position? : Command → Option UInt16
  | arrayRead _ position | bufferWrite position => some position
  | pageToBuffer _ | program _ => none

/-- An argument that is not taken counts as zero. -/
def address (c : Command) : Nat :=
  (c.page?.getD 0).toNat * 2 ^ 11 + (c.position?.getD 0).toNat

def dummy : Command → List UInt8
  | arrayRead .. => [0]
  | bufferWrite _ | pageToBuffer _ | program _ => []

def Fits (c : Command) : Prop :=
  (∀ page ∈ c.page?, page.toNat < 2 ^ 13) ∧ ∀ position ∈ c.position?, position.toNat < 2 ^ 11

theorem pageFault_eq_none {page : UInt16} : pageFault? page = none ↔ page.toNat < 2 ^ 13 := by
  have ones : pageMask.toNat = 2 ^ 13 - 1 := rfl
  rw [pageFault?, ← and_not_mask_eq_zero ones]
  split <;> simp_all

theorem positionFault_eq_none {position : UInt16} :
    positionFault? position = none ↔ position.toNat < 2 ^ 11 := by
  have ones : positionMask.toNat = 2 ^ 11 - 1 := rfl
  rw [positionFault?, ← and_not_mask_eq_zero ones]
  split <;> simp_all

theorem fault_eq_none {c : Command} : c.fault? = none ↔ c.Fits := by
  cases c <;>
    simp [fault?, Fits, page?, position?, pageFault_eq_none, positionFault_eq_none]

theorem encode_eq (c : Command) :
    c.encode =
      c.opcode :: addressBytes (c.page?.getD 0) (c.position?.getD 0) ++ c.dummy := by
  cases c <;> simp [encode, opcode, addressBytes, page?, position?, dummy]

theorem Fits.page {c : Command} (fits : c.Fits) : (c.page?.getD 0).toNat < 2 ^ 13 := by
  cases taken : c.page? with
  | none => decide
  | some page => exact fits.1 page taken

theorem Fits.position {c : Command} (fits : c.Fits) : (c.position?.getD 0).toNat < 2 ^ 11 := by
  cases taken : c.position? with
  | none => decide
  | some position => exact fits.2 position taken

/-- The command that bytes spell, if their opcode is that of an addressed command. -/
def decode : List UInt8 → Option Command
  | [] => none
  | opcode :: rest =>
    let address := number (rest.take 3)
    let page := UInt16.ofNat (address / 2 ^ 11)
    let position := UInt16.ofNat (address % 2 ^ 11)
    if opcode = Opcode.arrayRead then some (.arrayRead page position)
    else if opcode = Opcode.bufferWrite then some (.bufferWrite position)
    else if opcode = Opcode.pageToBuffer then some (.pageToBuffer page)
    else if opcode = Opcode.program then some (.program page)
    else none

theorem decode_encode {c : Command} (fits : c.Fits) : decode c.encode = some c := by
  have spelled : number ((addressBytes (c.page?.getD 0) (c.position?.getD 0) ++ c.dummy).take 3) =
      c.address := number_addressBytes fits.page fits.position
  have page : UInt16.ofNat (c.address / 2 ^ 11) = c.page?.getD 0 := by
    have small := fits.position
    have field : c.address / 2 ^ 11 = (c.page?.getD 0).toNat := by
      rw [Command.address]
      omega
    rw [field, UInt16.ofNat_toNat]
  have position : UInt16.ofNat (c.address % 2 ^ 11) = c.position?.getD 0 := by
    have small := fits.position
    have field : c.address % 2 ^ 11 = (c.position?.getD 0).toNat := by
      rw [Command.address]
      omega
    rw [field, UInt16.ofNat_toNat]
  simp only [encode_eq, List.cons_append, decode, spelled, page, position]
  cases c <;> rfl

end Command

end Flash

namespace Board

variable {kept : Nat → Prop} {bus i : Nat} {b : Board}

/-- From its start on, a transfer has sent a front part of its bytes, and all of them once it is
complete. -/
theorem start_sends (bus : Nat) (b : Board) {t : Transfer} (accepted : t.fault? = none)
    (full : t.Full) (separate : ∀ a ∈ t.lent, a ∉ t.targets)
    (lent : ∀ a, a ∈ t.lent ∨ a ∈ t.targets → kept a) :
    ∃ b₁, start bus t b = .ok () b₁ ∧ (b₁.masters.get bus).status = .inProgress ∧
      ∀ b₂, Turns kept bus b₁ b₂ →
        ∃ wires, b₂.kernel.wires bus = b.kernel.wires bus ++ wires ∧
          Wire.sent wires <+: t.outgoing b.memory ∧
          ((b₂.masters.get bus).status = .ok → Wire.sent wires = t.outgoing b.memory) := by
  have covers : Covers kept t.beats := by
    intro beat mem a out
    exact lent a (Or.inl (Transfer.lent_of_beat mem out))
  obtain ⟨b₁, started, serving⟩ := start_ok bus b accepted covers
  refine ⟨b₁, started, ?_, fun b₂ turns => ?_⟩
  · obtain ⟨wires, -, going⟩ := serving
    exact going.busy
  · rcases turns_keep turns covers serving with ⟨wires, split, going⟩ | ⟨wires, split, finished⟩
    · -- What is lent is stored in by nobody, so the bytes are those of the start throughout.
      have front := going.underway.so_far
      rw [Transfer.clocked_outgoing b.memory _ accepted full separate] at front
      refine ⟨wires, split, front, fun done => ?_⟩
      rw [going.busy] at done
      cases done
    · obtain ⟨all, -⟩ := Transfer.of_complete accepted full separate
        (fun a mem => lent a (Or.inr mem)) finished.complete
      exact ⟨wires, split, all ▸ List.prefix_rfl, fun _ => all⟩

/-- The scratch cells are the chip's own until the transfer is complete. -/
theorem sendScratch_sends (i : Nat) (b : Board) {bytes : List UInt8} (some_bytes : bytes ≠ [])
    (fit : bytes.length ≤ 5) :
    ∃ b₁, sendScratch i bytes b = .ok () b₁ ∧
      (b₁.masters.get (b.chip i).device.bus).status = .inProgress ∧
      ∀ b₂, Turns (b.chip i).Owns (b.chip i).device.bus b₁ b₂ →
        ∃ wires, b₂.kernel.wires (b.chip i).device.bus =
            b.kernel.wires (b.chip i).device.bus ++ wires ∧
          Wire.sent wires <+: bytes ∧
          ((b₂.masters.get (b.chip i).device.bus).status = .ok → Wire.sent wires = bytes) := by
  let span : Span := ⟨(b.chip i).scratch, bytes.length⟩
  have sends := start_sends (b.chip i).device.bus { b with memory := span.store b.memory bytes }
    (t := .write (.cells span)) rfl trivial (fun a _ mem => by cases mem) (owns_of_write fit)
  rwa [outgoing_stored b.memory (b.chip i).scratch some_bytes] at sends

open Flash in
/-- An addressed command is refused, with nothing changed, exactly if an argument does not fit its
field. Otherwise it goes out as its opcode, the address of 24 bits and, after an array read, a zero,
however often its poll task yields between two bytes; and those bytes spell no other command. -/
theorem addressed_commands_go_out_whole_or_are_refused (i : Nat) (c : Command) (b : Board) :
    (¬ c.Fits → ∃ cause, command i c b = .error (.fault cause) b) ∧
    (c.Fits →
      (∃ b₁, command i c b = .ok () b₁ ∧
        (b₁.masters.get (b.chip i).device.bus).status = .inProgress ∧
        ∀ b₂, Turns (b.chip i).Owns (b.chip i).device.bus b₁ b₂ →
          ∃ wires, b₂.kernel.wires (b.chip i).device.bus =
              b.kernel.wires (b.chip i).device.bus ++ wires ∧
            Wire.sent wires <+: c.encode ∧
            ((b₂.masters.get (b.chip i).device.bus).status = .ok →
              Wire.sent wires = c.encode)) ∧
      (∃ high middle low : UInt8,
        c.encode = c.opcode :: high :: middle :: low :: c.dummy ∧
        (high.toNat * 2 ^ 8 + middle.toNat) * 2 ^ 8 + low.toNat = c.address) ∧
      Command.decode c.encode = some c ∧
      ∀ other : Command, other.Fits → other.encode = c.encode → other = c) := by
  constructor
  · intro unfit
    cases fault : c.fault? with
    | none => exact absurd (Command.fault_eq_none.mp fault) unfit
    | some cause =>
      refine ⟨cause, ?_⟩
      simp only [command, fault]
      rfl
  · intro fits
    have accepted : command i c = sendScratch i c.encode := by
      rw [command, Command.fault_eq_none.mpr fits]
    have decoded := Command.decode_encode fits
    refine ⟨?_, ?_, decoded, fun other fits' same => ?_⟩
    · rw [accepted]
      apply sendScratch_sends i b
      · cases c <;> simp [Command.encode]
      · cases c <;> simp [Command.encode]
    · refine ⟨_, _, _, c.encode_eq, ?_⟩
      simpa [number, addressBytes, Command.address] using
        number_addressBytes fits.page fits.position
    · have decoded' := Command.decode_encode fits'
      rw [same, decoded] at decoded'
      exact (Option.some.inj decoded').symm

/-- Both fields lie across a byte boundary, and the poll task yields after every byte. -/
theorem array_read_goes_out_in_five_runs :
    let bus : BusPlan := { budget := ⟨1, by decide⟩, hardware := .scripted (fun _ => true) [] }
    let b := ({ buses := [bus], chips := [⟨0, .mode0, 1000000⟩] } : Plan).bootBoard
    (∃ cause, command 0 (.arrayRead 0x1234 0x800) b = .error (.fault cause) b) ∧
      ∃ b₁ b₂ wires, command 0 (.arrayRead 0x1234 0x567) b = .ok () b₁ ∧
        pollRuns 0 5 b₁ = some b₂ ∧ b₂.kernel.wires 0 = b.kernel.wires 0 ++ wires ∧
        Wire.sent wires = [0x0b, 0x91, 0xa5, 0x67, 0] := by
  intro bus b
  obtain ⟨refused, -⟩ :=
    addressed_commands_go_out_whole_or_are_refused 0 (.arrayRead 0x1234 0x800) b
  obtain ⟨-, sends⟩ := addressed_commands_go_out_whole_or_are_refused 0 (.arrayRead 0x1234 0x567) b
  refine ⟨refused (by simp [Flash.Command.Fits, Flash.Command.page?, Flash.Command.position?]), ?_⟩
  obtain ⟨⟨b₁, started, -, sent⟩, -⟩ :=
    sends (by simp [Flash.Command.Fits, Flash.Command.page?, Flash.Command.position?])
  have five : (Exec.after? (command 0 (.arrayRead 0x1234 0x567)) b).bind (fun b₁ =>
      (pollRuns 0 5 b₁).map fun b₂ => (b₂.masters.get 0).status) = some .ok := by decide +kernel
  obtain ⟨b₁', started', five⟩ := Option.bind_eq_some_iff.mp five
  rw [Exec.of_after started'] at started
  cases started
  obtain ⟨b₂, ran, done⟩ := Option.map_eq_some_iff.mp five
  obtain ⟨wires, split, -, all⟩ := sent b₂ (turns_of_pollRuns ran)
  exact ⟨b₁, b₂, wires, Exec.of_after started', ran, split, all done⟩

end Board

end CoopKernel
