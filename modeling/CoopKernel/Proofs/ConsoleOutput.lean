import CoopKernel.Proofs.PacedPatience
import Mathlib.Data.List.Basic

/-!
# Output of a console

Whatever is written to a console, in bytes, characters or texts, comes out at its
hardware once and in order. At every point between two operations the bytes taken
by the hardware, followed by those still buffered, are all that was written. The
size of the buffer, the hardware's refusals and the interrupt flag have no part
in it, nor has the way in which a text is cut into writes.
-/

namespace CoopKernel

variable {σ : Type}

/-- A backend that never loses a byte: everything buffered goes to the hardware, in order, both on
a commit and when room is wanted. -/
structure Backend.Flushes (b : Backend σ) (fine : σ → Prop) (taken : σ → List UInt8) : Prop where
  commit : ∀ {c : Channel σ}, fine c.hardware → ∃ c', b.commit c = some c' ∧ fine c'.hardware ∧
    taken c'.hardware = taken c.hardware ++ c.stream.contents ∧ c'.stream.contents = []
  free : ∀ (goal : Nat) {c : Channel σ}, fine c.hardware →
    ∃ c', b.free goal c = some (true, c') ∧ fine c'.hardware ∧
      taken c'.hardware = taken c.hardware ++ c.stream.contents ∧ c'.stream.contents = []

theorem Transmitter.Patient.flushes {t : Transmitter σ} {fine : σ → Prop}
    {taken : σ → List UInt8} (patient : t.Patient fine taken) : t.backend.Flushes fine taken where
  commit start := patient.commit start
  free goal c start := by
    obtain ⟨c', committed, rest⟩ := patient.commit start
    refine ⟨c', ?_, rest⟩
    simp only [Transmitter.backend, committed]
    rfl

theorem Stream.room_of_empty {s : Stream} (empty : s.contents = []) : s.room = s.capacity := by
  have held : s.held = 0 := by rw [← length_contents, empty, List.length_nil]
  have total := s.held_add_room
  omega

namespace Channel

def passed (taken : σ → List UInt8) (c : Channel σ) : List UInt8 :=
  taken c.hardware ++ c.stream.contents

def expand (bytes : List UInt8) : List UInt8 :=
  bytes.flatMap fun byte => if byte = newline then lineEnd else [byte]

theorem splitLines_expand (text : List UInt8) :
    (splitLines text).1 ++ (splitLines text).2.flatMap (lineEnd ++ ·) = expand text := by
  induction text with
  | nil => rfl
  | cons byte rest ih =>
    by_cases ends : byte = newline
    · simp only [splitLines, if_pos ends, expand, List.flatMap_cons, List.nil_append,
        List.append_assoc]
      exact congrArg (lineEnd ++ ·) ih
    · simp only [splitLines, if_neg ends, expand, List.flatMap_cons, List.cons_append,
        List.nil_append]
      exact congrArg (byte :: ·) ih

end Channel

namespace Backend.Flushes

open Channel

variable {b : Backend σ} {fine : σ → Prop} {taken : σ → List UInt8}

/-- The channel `f` leaves has passed on `bytes` more. -/
def Passes (fine : σ → Prop) (taken : σ → List UInt8) (bytes : List UInt8)
    (f : Channel σ → Option (Channel σ)) : Prop :=
  ∀ c : Channel σ, fine c.hardware →
    ∃ c', f c = some c' ∧ fine c'.hardware ∧ c'.passed taken = c.passed taken ++ bytes

/-- There is room for the bytes, or for some of them once the stream is empty. -/
theorem ensureRoom (flushes : b.Flushes fine taken) (needed : Nat) {c : Channel σ}
    (start : fine c.hardware) :
    ∃ c', Channel.ensureRoom b needed c = some (true, c') ∧ fine c'.hardware ∧
      c'.passed taken = c.passed taken ∧ (needed ≤ c'.stream.room ∨ 0 < c'.stream.room) := by
  by_cases short : c.stream.room < needed
  · obtain ⟨c', freed, still, all, empty⟩ := flushes.free needed start
    refine ⟨c', ?_, still, ?_, Or.inr ?_⟩
    · rw [Channel.ensureRoom, if_pos short, freed]
    · rw [passed, all, empty, List.append_nil, passed]
    · rw [Stream.room_of_empty empty]
      exact c'.stream.capacity_pos
  · refine ⟨c, ?_, start, rfl, Or.inl (Nat.le_of_not_lt short)⟩
    rw [Channel.ensureRoom, if_neg short]

theorem passed_store (taken : σ → List UInt8) (bytes : List UInt8) (c : Channel σ) :
    (c.store bytes).2.passed taken = c.passed taken ++ bytes.take (c.store bytes).1 := by
  change taken c.hardware ++ (c.stream.push bytes).2.contents = _
  rw [Stream.contents_push, ← List.append_assoc]
  rfl

/-- By induction on the rounds: each of them stores a byte at least. -/
theorem writeRounds (flushes : b.Flushes fine taken) (rounds : Nat) (bytes : List UInt8)
    (enough : bytes.length ≤ rounds) :
    Passes fine taken bytes (Channel.writeRounds b rounds bytes) := by
  induction rounds generalizing bytes with
  | zero =>
    intro c start
    obtain rfl : bytes = [] := List.length_eq_zero_iff.mp (Nat.le_zero.mp enough)
    exact ⟨c, rfl, start, (List.append_nil _).symm⟩
  | succ rounds ih =>
    intro c start
    obtain _ | ⟨first, rest⟩ := bytes
    · exact ⟨c, rfl, start, (List.append_nil _).symm⟩
    obtain ⟨c₁, freed, still, same, room⟩ := flushes.ensureRoom (first :: rest).length start
    have count : (c₁.store (first :: rest)).1 = min (first :: rest).length c₁.stream.room := rfl
    have stores : 0 < (c₁.store (first :: rest)).1 := by
      rw [count, List.length_cons]
      rw [List.length_cons] at room
      omega
    have left : ((first :: rest).drop (c₁.store (first :: rest)).1).length ≤ rounds := by
      rw [List.length_drop]
      omega
    obtain ⟨c', wrote, last, all⟩ := ih _ left (c₁.store (first :: rest)).2 still
    refine ⟨c', ?_, last, ?_⟩
    · rw [Channel.writeRounds, freed]
      · simp only [if_neg (Nat.ne_of_gt stores)]
        exact wrote
      · intro none_left
        cases none_left
    · rw [all, passed_store, same, List.append_assoc, List.take_append_drop]

theorem write (flushes : b.Flushes fine taken) (bytes : List UInt8) :
    Passes fine taken bytes (Channel.write b bytes) :=
  flushes.writeRounds bytes.length bytes (Nat.le_refl _)

theorem writeByte (flushes : b.Flushes fine taken) (byte : UInt8) :
    Passes fine taken (expand [byte]) (Channel.writeByte b byte) := by
  have one : expand [byte] = if byte = newline then lineEnd else [byte] := by simp [expand]
  rw [one]
  exact flushes.write _

theorem Passes.bind {f g : Channel σ → Option (Channel σ)} {first second : List UInt8}
    (hf : Passes fine taken first f) (hg : Passes fine taken second g) :
    Passes fine taken (first ++ second) fun c => (f c).bind g := by
  intro c start
  obtain ⟨c₁, ran, still, all⟩ := hf c start
  obtain ⟨c', ran', last, all'⟩ := hg c₁ still
  refine ⟨c', ?_, last, ?_⟩
  · simp only [ran]
    exact ran'
  · rw [all', all, List.append_assoc]

theorem writeLines (flushes : b.Flushes fine taken) (lines : List (List UInt8)) :
    Passes fine taken (lines.flatMap (lineEnd ++ ·)) (Channel.writeLines b lines) := by
  induction lines with
  | nil => exact fun c start => ⟨c, rfl, start, (List.append_nil _).symm⟩
  | cons line rest ih =>
    have both := (flushes.write lineEnd).bind ((flushes.write line).bind ih)
    rw [← List.append_assoc] at both
    exact both

theorem writeText (flushes : b.Flushes fine taken) (text : List UInt8) :
    Passes fine taken (expand text) (Channel.writeText b text) := by
  rw [← splitLines_expand]
  exact (flushes.write _).bind (flushes.writeLines _)

theorem writePieces (flushes : b.Flushes fine taken) (pieces : List (List UInt8)) :
    Passes fine taken (pieces.flatMap expand) (Channel.writePieces b pieces) := by
  induction pieces with
  | nil => exact fun c start => ⟨c, rfl, start, (List.append_nil _).symm⟩
  | cons piece rest ih => exact (flushes.writeText piece).bind ih

/-- Nothing new is written, and nothing is left in the buffer. -/
theorem commits (flushes : b.Flushes fine taken) : Passes fine taken [] b.commit := by
  intro c start
  obtain ⟨c', committed, last, all, empty⟩ := flushes.commit start
  refine ⟨c', committed, last, ?_⟩
  rw [passed, all, empty, List.append_nil, List.append_nil, passed]

end Backend.Flushes

inductive ConsoleOp where
  | bytes (data : List UInt8)
  | byte (b : UInt8)
  | text (s : String)
  | char (ch : Char)
  | commit
deriving DecidableEq, Repr

namespace ConsoleOp

/-- A character is written as a text of its own. -/
def run (b : Backend σ) : ConsoleOp → Channel σ → Option (Channel σ)
  | bytes data, c => c.write b data
  | byte x, c => c.writeByte b x
  | text s, c => c.writeText b s.toUTF8.toList
  | char ch, c => c.writeText b (String.utf8EncodeChar ch)
  | commit, c => b.commit c

def runAll (b : Backend σ) : List ConsoleOp → Channel σ → Option (Channel σ)
  | [], c => some c
  | op :: ops, c => (op.run b c).bind (runAll b ops)

def source : ConsoleOp → List UInt8
  | bytes data => data
  | byte x => [x]
  | text s => s.toUTF8.toList
  | char ch => String.utf8EncodeChar ch
  | commit => []

def isRaw : ConsoleOp → Bool
  | bytes _ => true
  | _ => false

def output (op : ConsoleOp) : List UInt8 :=
  if op.isRaw then op.source else Channel.expand op.source

/-- Without raw bytes only the characters count, and not how they are cut into operations. -/
theorem output_of_source {ops : List ConsoleOp} (typed : ∀ op ∈ ops, op.isRaw = false) :
    ops.flatMap output = Channel.expand (ops.flatMap source) := by
  rw [Channel.expand, List.flatMap_assoc]
  refine List.flatMap_congr fun op mem => ?_
  rw [output, if_neg (by rw [typed op mem]; exact Bool.false_ne_true), Channel.expand]

end ConsoleOp

/-- By induction on the array as its loop walks through it. -/
theorem byteArray_toList_loop (bs : ByteArray) (i : Nat) (done : List UInt8) :
    ByteArray.toList.loop bs i done = done.reverse ++ bs.data.toList.drop i := by
  fun_induction ByteArray.toList.loop bs i done with
  | case1 i done inside ih =>
    have bound : i < bs.data.toList.length := by simpa using inside
    rw [ih, List.drop_eq_getElem_cons bound]
    simp [ByteArray.get!, inside]
  | case2 i done outside =>
    have bound : bs.data.toList.length ≤ i := by simpa using Nat.le_of_not_lt outside
    rw [List.drop_eq_nil_of_le bound, List.append_nil]

/-- The bytes of a text are those of its characters. -/
theorem utf8_eq (s : String) : s.toUTF8.toList = s.toList.flatMap String.utf8EncodeChar := by
  rw [ByteArray.toList, byteArray_toList_loop, List.reverse_nil, List.nil_append, List.drop_zero,
    String.toUTF8_eq_toByteArray]
  conv_lhs => rw [← String.ofList_toList (s := s), String.toByteArray_ofList]
  rw [List.utf8Encode, List.toList_data_toByteArray]

namespace ConsoleOp

/-- The operations write the text: all of it, in order, and nothing as raw bytes. -/
def Spells (text : String) (ops : List ConsoleOp) : Prop :=
  (∀ op ∈ ops, op.isRaw = false) ∧ ops.flatMap source = text.toUTF8.toList

theorem spells_texts (pieces : List String) : Spells (String.join pieces) (pieces.map text) := by
  constructor
  · intro op mem
    obtain ⟨piece, -, rfl⟩ := List.mem_map.mp mem
    rfl
  · rw [utf8_eq, String.toList_join, List.flatMap_assoc, List.flatMap_map]
    exact List.flatMap_congr fun piece _ => utf8_eq piece

theorem spells_chars (text : String) : Spells text (text.toList.map char) := by
  constructor
  · intro op mem
    obtain ⟨ch, -, rfl⟩ := List.mem_map.mp mem
    rfl
  · rw [utf8_eq, List.flatMap_map]
    rfl

theorem spells_bytes (text : String) : Spells text (text.toUTF8.toList.map byte) := by
  constructor
  · intro op mem
    obtain ⟨x, -, rfl⟩ := List.mem_map.mp mem
    rfl
  · rw [List.flatMap_map]
    exact List.flatMap_singleton' _

variable {b : Backend σ} {fine : σ → Prop} {taken : σ → List UInt8}

theorem passes_run (flushes : b.Flushes fine taken) (op : ConsoleOp) :
    Backend.Flushes.Passes fine taken op.output (op.run b) := by
  cases op with
  | bytes data => exact flushes.write data
  | byte x => exact flushes.writeByte x
  | text s => exact flushes.writeText s.toUTF8.toList
  | char ch => exact flushes.writeText (String.utf8EncodeChar ch)
  | commit => exact flushes.commits

/-- By induction on the operations. -/
theorem passes_runAll (flushes : b.Flushes fine taken) (ops : List ConsoleOp) :
    Backend.Flushes.Passes fine taken (ops.flatMap output) (runAll b ops) := by
  induction ops with
  | nil => exact fun c start => ⟨c, rfl, start, (List.append_nil _).symm⟩
  | cons op ops ih => exact (passes_run flushes op).bind ih

end ConsoleOp

open ConsoleOp in
/-- Every sequence of operations ends. Then the bytes taken, followed by those still buffered, have
grown by all that was written, and a commit leaves nothing in the buffer. A text comes out the same
however it is cut: into one write or several, into characters, or into bytes. -/
theorem console_output_lossless {t : Transmitter σ} {fine : σ → Prop} {taken : σ → List UInt8}
    (patient : t.Patient fine taken) {c : Channel σ} (start : fine c.hardware) :
    (∀ ops, ∃ c', runAll t.backend ops c = some c' ∧
      taken c'.hardware ++ c'.stream.contents =
        taken c.hardware ++ c.stream.contents ++ ops.flatMap output ∧
      ∃ flushed, ConsoleOp.commit.run t.backend c' = some flushed ∧
        flushed.stream.contents = [] ∧ taken flushed.hardware =
          taken c.hardware ++ c.stream.contents ++ ops.flatMap output) ∧
    (∀ text ops, Spells text ops → ∃ c', runAll t.backend ops c = some c' ∧
      taken c'.hardware ++ c'.stream.contents =
        taken c.hardware ++ c.stream.contents ++ Channel.expand text.toUTF8.toList) ∧
    (∀ pieces, Spells (String.join pieces) (pieces.map .text)) ∧
    ∀ text, Spells text (text.toList.map .char) ∧ Spells text (text.toUTF8.toList.map .byte) := by
  have flushes := patient.flushes
  refine ⟨?_, ?_, spells_texts, fun text => ⟨spells_chars text, spells_bytes text⟩⟩
  · intro ops
    obtain ⟨c', ran, still, all⟩ := passes_runAll flushes ops c start
    obtain ⟨flushed, committed, -, drained, empty⟩ := flushes.commit still
    exact ⟨c', ran, all, flushed, committed, empty, drained.trans all⟩
  · rintro text ops ⟨typed, spelled⟩
    obtain ⟨c', ran, -, all⟩ := passes_runAll flushes ops c start
    rw [output_of_source typed, spelled] at all
    exact ⟨c', ran, all⟩

/-- A line break and more go through a buffer of one byte, to a UART that is busy at first and
refuses every byte once more. -/
def oneByteConsole : Channel PacedUart where
  cpu := { enabled := false }
  hardware := { busy := [3, 0, 2], rejects := [1, 1, 1, 1] }
  stream := { exponent := 0 }

theorem lossless_through_one_byte :
    (∃ c', ConsoleOp.runAll PacedUart.transmitter.backend
        [.text "a\nb", .commit, .byte 0x0a, .bytes [0x0a]] oneByteConsole = some c' ∧
      c'.hardware.sent.toList ++ c'.stream.contents =
        [0x61, 0x0d, 0x0a, 0x62, 0x0d, 0x0a, 0x0a]) ∧
    ∃ c', ConsoleOp.runAll PacedUart.transmitter.backend
        [.char 'a', .byte 0x0a, .commit, .text "b"] oneByteConsole = some c' ∧
      c'.hardware.sent.toList ++ c'.stream.contents = [0x61, 0x0d, 0x0a, 0x62] := by
  obtain ⟨every, however_cut, -⟩ :=
    console_output_lossless PacedUart.patient (c := oneByteConsole) trivial
  constructor
  · obtain ⟨c', ran, all, -⟩ := every [.text "a\nb", .commit, .byte 0x0a, .bytes [0x0a]]
    exact ⟨c', ran, all.trans (by decide +kernel)⟩
  · have spelled : ConsoleOp.Spells "a\nb" [.char 'a', .byte 0x0a, .commit, .text "b"] := by
      constructor <;> decide +kernel
    obtain ⟨c', ran, all⟩ := however_cut _ _ spelled
    exact ⟨c', ran, all.trans (by decide +kernel)⟩

end CoopKernel
