import CoopKernel.Spi.Poll
import Mathlib.Data.List.Basic

/-!
# Beats of a transfer

A beat sends one byte and receives one. A transfer is a fixed list of beats,
known when it starts: where each byte to send comes from, and which cell takes
the byte that comes back. Budgets and ready flags are not part of it.

A byte to send is loaded before the byte in flight has come back, so it is read
from memory as it was one store earlier. `clocked` says so for every beat.
-/

namespace CoopKernel.Spi

inductive Outgoing where
  | byte (b : UInt8)
  | cell (address : Nat)
deriving DecidableEq, Repr

def Outgoing.value (memory : Memory) : Outgoing → UInt8
  | byte b => b
  | cell address => memory.get address

structure Beat where
  out : Outgoing
  into : Option Nat
deriving DecidableEq, Repr

def deposit (memory : Memory) : Option Nat → UInt8 → Memory
  | some address, byte => memory.set address byte
  | none, _ => memory

def settle (memory : Memory) : List Beat → List UInt8 → Memory
  | beat :: beats, byte :: bytes => settle (deposit memory beat.into byte) beats bytes
  | _, _ => memory

/-- What the beats put on the wire when these bytes come back. -/
def clocked (memory : Memory) (beats : List Beat) (received : List UInt8) : List UInt8 :=
  beats.mapIdx fun k beat => beat.out.value (settle memory beats (received.take (k - 1)))

def Source.next : Source → Outgoing
  | .bytes (b :: _) => .byte b
  | .cells ⟨start, _ + 1⟩ => .cell start
  | _ => .byte 0

namespace Lanes

def out (lanes : Lanes) (write : Source) : Outgoing := if lanes.write then write.next else .byte 0

def into (lanes : Lanes) (read : Span) : Option Nat := if lanes.read then read.first? else none

def sent (lanes : Lanes) (write : Source) : Source := if lanes.write then write.rest else write

def filled (lanes : Lanes) (read : Span) : Span := if lanes.read then read.rest else read

end Lanes

def line (lanes : Lanes) : Nat → Source → Span → List Beat
  | 0, _, _ => []
  | n + 1, write, read =>
    ⟨lanes.out write, lanes.into read⟩ :: line lanes n (lanes.sent write) (lanes.filled read)

/-- An empty buffer still takes one beat. -/
def buffer (lanes : Lanes) (length : Nat) (write : Source) (read : Span) : List Beat :=
  line lanes (max length 1) write read

def Transfer.beats : Transfer → List Beat
  | .write data => buffer { write := true } data.length data {}
  | .read into => buffer { read := true } into.length .empty into
  | .exchange data into => buffer { write := true, read := true } data.length data into
  | .writeList data =>
    data.flatMap fun d => buffer { write := true, list := true } d.length (.bytes d) {}
  | .readList into =>
    into.flatMap fun i => buffer { read := true, list := true } i.length .empty i
  | .exchangeList data into =>
    (data.zip into).flatMap fun (d, i) => buffer ⟨true, true, true⟩ d.length (.bytes d) i

/-- Cells whose content the transfer sends. -/
def Transfer.lent : Transfer → List Nat
  | .write (.cells span) | .exchange (.cells span) _ => span.addresses
  | _ => []

theorem value_next (s : Source) (memory : Memory) :
    s.next.value memory = (s.first? memory).getD 0 := by
  cases s with
  | bytes data => cases data <;> rfl
  | cells span =>
    obtain ⟨start, length⟩ := span
    cases length <;> rfl

theorem buffer_succ (lanes : Lanes) (length : Nat) (write : Source) (read : Span) :
    buffer lanes length write read = ⟨lanes.out write, lanes.into read⟩ ::
      line lanes (length - 1) (lanes.sent write) (lanes.filled read) := by
  have : max length 1 = length - 1 + 1 := by omega
  rw [buffer, this, line]

/-- A lane that is off does not matter. -/
theorem line_read_off {lanes : Lanes} (off : lanes.read = false) (n : Nat) (write : Source)
    (read read' : Span) : line lanes n write read = line lanes n write read' := by
  induction n generalizing write with
  | zero => rfl
  | succ n ih =>
    have same : lanes.into read = lanes.into read' := by simp [Lanes.into, off]
    have stay : ∀ r, lanes.filled r = r := fun r => by simp [Lanes.filled, off]
    rw [line, line, same, stay, stay, ih]

theorem line_write_off {lanes : Lanes} (off : lanes.write = false) (n : Nat)
    (write write' : Source) (read : Span) :
    line lanes n write read = line lanes n write' read := by
  induction n generalizing read with
  | zero => rfl
  | succ n ih =>
    have same : lanes.out write = lanes.out write' := by simp [Lanes.out, off]
    have stay : ∀ w, lanes.sent w = w := fun w => by simp [Lanes.sent, off]
    rw [line, line, same, stay, stay, ih]

theorem settle_append (memory : Memory) {beats : List Beat} (more : List Beat)
    {bytes : List UInt8} (h : bytes.length ≤ beats.length) :
    settle memory (beats ++ more) bytes = settle memory beats bytes := by
  induction beats generalizing memory bytes with
  | nil =>
    have : bytes = [] := List.length_eq_zero_iff.mp (Nat.le_zero.mp h)
    subst this
    cases more <;> rfl
  | cons beat beats ih =>
    cases bytes with
    | nil => rfl
    | cons byte bytes => exact ih _ (Nat.le_of_succ_le_succ h)

theorem settle_snoc (memory : Memory) {beats : List Beat} (beat : Beat) {bytes : List UInt8}
    (byte : UInt8) (h : beats.length = bytes.length) :
    settle memory (beats ++ [beat]) (bytes ++ [byte]) =
      deposit (settle memory beats bytes) beat.into byte := by
  induction beats generalizing memory bytes with
  | nil =>
    have : bytes = [] := List.length_eq_zero_iff.mp h.symm
    subst this
    rfl
  | cons first beats ih =>
    cases bytes with
    | nil => simp at h
    | cons b bytes => exact ih _ (Nat.succ.inj h)

theorem clocked_snoc (memory : Memory) {beats : List Beat} (beat : Beat)
    {received : List UInt8} (h : received.length ≤ beats.length) :
    clocked memory (beats ++ [beat]) received =
      clocked memory beats received ++
        [beat.out.value (settle memory beats (received.take (beats.length - 1)))] := by
  have same : ∀ k, settle memory (beats ++ [beat]) (received.take k) =
      settle memory beats (received.take k) := by
    intro k
    exact settle_append memory [beat] (Nat.le_trans (List.length_take_le' k received) h)
  simp only [clocked, List.mapIdx_append, List.mapIdx_cons, List.mapIdx_nil, same, Nat.zero_add]

theorem clocked_more (memory : Memory) {beats : List Beat} (more : List Beat)
    {received : List UInt8} (h : received.length ≤ beats.length) :
    clocked memory beats received <+: clocked memory (beats ++ more) received := by
  have same : ∀ k, settle memory (beats ++ more) (received.take k) =
      settle memory beats (received.take k) := by
    intro k
    exact settle_append memory more (Nat.le_trans (List.length_take_le' k received) h)
  simp only [clocked, List.mapIdx_append, same]
  exact List.prefix_append ..

/-- The byte that comes back last is too late for any beat already sent. -/
theorem clocked_receive (memory : Memory) {beats : List Beat} {received : List UInt8}
    (byte : UInt8) (h : beats.length ≤ received.length + 2) :
    clocked memory beats (received ++ [byte]) = clocked memory beats received := by
  refine List.mapIdx_eq_mapIdx_iff.mpr fun k hk => ?_
  rw [List.take_append_of_le_length (by omega)]

variable {memory : Memory} {beats : List Beat} {bytes received : List UInt8}

theorem settle_miss {a : Nat} (miss : ∀ beat ∈ beats, beat.into ≠ some a) :
    (settle memory beats bytes).get a = memory.get a := by
  induction beats generalizing memory bytes with
  | nil => rfl
  | cons beat beats ih =>
    obtain _ | ⟨byte, bytes⟩ := bytes
    · rfl
    have other := miss beat List.mem_cons_self
    have kept : (deposit memory beat.into byte).get a = memory.get a := by
      cases into : beat.into with
      | none => rfl
      | some address =>
        refine Bank.get_set_ne memory byte fun same => other ?_
        rw [into, same]
    exact (ih fun b hb => miss b (List.mem_cons_of_mem beat hb)).trans kept

/-- The last byte that goes to a cell stays there. -/
theorem settle_hit {a k : Nat} {byte : UInt8} (slot : (beats.map Beat.into)[k]? = some (some a))
    (last : ∀ beat ∈ beats.drop (k + 1), beat.into ≠ some a) (came : bytes[k]? = some byte) :
    (settle memory beats bytes).get a = byte := by
  induction beats generalizing memory bytes k with
  | nil => simp at slot
  | cons beat beats ih =>
    obtain _ | ⟨first, bytes⟩ := bytes
    · simp at came
    cases k with
    | zero =>
      have into : beat.into = some a := by simpa using slot
      obtain rfl : first = byte := by simpa using came
      change (settle (deposit memory beat.into first) beats bytes).get a = first
      rw [settle_miss (by simpa using last), into]
      exact Bank.get_set_same ..
    | succ k => exact ih (by simpa using slot) (by simpa using last) (by simpa using came)

/-- Bytes sent from cells that nothing is stored in are those the cells held at the start. -/
theorem clocked_constant
    (separate : ∀ beat ∈ beats, ∀ a, beat.out = .cell a → ∀ other ∈ beats, other.into ≠ some a) :
    clocked memory beats received = beats.map fun beat => beat.out.value memory := by
  refine List.ext_getElem (by simp [clocked]) fun k hk hk' => ?_
  have inside : k < beats.length := by simpa using hk'
  simp only [clocked, List.getElem_mapIdx, List.getElem_map]
  cases out : beats[k].out with
  | byte b => rfl
  | cell a => exact settle_miss (separate _ (List.getElem_mem _) a out)

end CoopKernel.Spi
