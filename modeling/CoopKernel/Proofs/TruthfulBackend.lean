import CoopKernel.Proofs.ConsoleOutput
import CoopKernel.Proofs.StreamFifo

/-!
# Backends that answer truthfully

A request for room says how many bytes are wanted, and a backend may say that it
is not possible. A console asks for room for all of a string at once. A backend
that empties the stream and answers truthfully therefore lets a string pass that
is no longer than the stream, and refuses a longer one, for which an empty stream
has no room either. Nothing of that string is kept, though its parts would pass.
-/

namespace CoopKernel

variable {σ : Type}

/-- When room is wanted, the backend takes everything out of the stream, in order. It says whether
as much room as was wanted is there then. The stream keeps its size. -/
structure Backend.Truthful (b : Backend σ) (fine : σ → Prop) (taken : σ → List UInt8) : Prop where
  free : ∀ (goal : Nat) {c : Channel σ}, fine c.hardware → ∃ c',
    b.free goal c = some (decide (goal ≤ c'.stream.room), c') ∧ fine c'.hardware ∧
      taken c'.hardware = taken c.hardware ++ c.stream.contents ∧ c'.stream.contents = [] ∧
      c'.stream.capacity = c.stream.capacity

namespace Channel

variable {b : Backend σ} {fine : σ → Prop} {taken : σ → List UInt8}
variable {bytes : List UInt8} {c c' : Channel σ} {rounds : Nat}

theorem stored_of_fits (fits : bytes.length ≤ c.stream.room) :
    (c.store bytes).1 = bytes.length ∧
      (c.store bytes).2.stream.contents = c.stream.contents ++ bytes := by
  have count : (c.stream.push bytes).1 = bytes.length := Nat.min_eq_left fits
  refine ⟨count, ?_⟩
  change (c.stream.push bytes).2.contents = _
  rw [Stream.contents_push, count, List.take_length]

/-- A round that finds room for all bytes is the last. -/
theorem writeRounds_granted (some_left : bytes ≠ [])
    (granted : ensureRoom b bytes.length c = some (true, c'))
    (fits : bytes.length ≤ c'.stream.room) :
    writeRounds b (rounds + 1) bytes c = some (c'.store bytes).2 := by
  have count := (stored_of_fits fits).1
  have stored : bytes.length ≠ 0 := fun zero => some_left (List.length_eq_zero_iff.mp zero)
  rw [writeRounds, granted]
  · simp only [count, if_neg stored, List.drop_length]
    cases rounds <;> rfl
  · exact fun none_left => some_left none_left

theorem writeRounds_refused (some_left : bytes ≠ [])
    (refused : ensureRoom b bytes.length c = some (false, c')) :
    writeRounds b (rounds + 1) bytes c = some c' := by
  rw [writeRounds, refused]
  exact fun none_left => some_left none_left

/-- What becomes of a string. What fits is stored. What is too long for the room that is left, and
not for an empty stream, finds the stream emptied. What is longer than the stream is dropped, and
the stream is emptied all the same. -/
inductive Written (taken : σ → List UInt8) (bytes : List UInt8) (c c' : Channel σ) : Prop where
  | stored (fits : bytes.length ≤ c.stream.room) (untaken : taken c'.hardware = taken c.hardware)
    (kept : c'.stream.contents = c.stream.contents ++ bytes)
  | flushed (short : c.stream.room < bytes.length) (passes : bytes.length ≤ c.stream.capacity)
    (drained : taken c'.hardware = taken c.hardware ++ c.stream.contents)
    (kept : c'.stream.contents = bytes)
  | dropped (long : c.stream.capacity < bytes.length)
    (drained : taken c'.hardware = taken c.hardware ++ c.stream.contents)
    (empty : c'.stream.contents = [])

/-- Only the string itself may be lost, and only when it is longer than the stream. -/
theorem Written.passed (h : Written taken bytes c c') : c'.passed taken =
    c.passed taken ++ if bytes.length ≤ c.stream.capacity then bytes else [] := by
  rw [Channel.passed, Channel.passed]
  cases h with
  | stored fits untaken kept =>
    have total := c.stream.held_add_room
    rw [if_pos (by omega), untaken, kept, List.append_assoc]
  | flushed short passes drained kept => rw [if_pos passes, drained, kept]
  | dropped long drained empty => rw [if_neg (Nat.not_le_of_lt long), drained, empty]

/-- The first request decides: a truthful backend that grants it has room for the whole string. -/
theorem write_truthful (truthful : b.Truthful fine taken) (bytes : List UInt8)
    (start : fine c.hardware) : ∃ c', write b bytes c = some c' ∧ fine c'.hardware ∧
      c'.stream.capacity = c.stream.capacity ∧ Written taken bytes c c' := by
  by_cases none_left : bytes = []
  · subst none_left
    exact ⟨c, rfl, start, rfl, .stored (Nat.zero_le _) rfl (List.append_nil _).symm⟩
  obtain ⟨rounds, length⟩ := Nat.exists_eq_succ_of_ne_zero
    (fun zero => none_left (List.length_eq_zero_iff.mp zero) : bytes.length ≠ 0)
  rw [write, length]
  by_cases short : c.stream.room < bytes.length
  · obtain ⟨c₁, freed, still, drained, empty, size⟩ := truthful.free bytes.length start
    have room : c₁.stream.room = c.stream.capacity := (Stream.room_of_empty empty).trans size
    have answer : ensureRoom b bytes.length c =
        some (decide (bytes.length ≤ c.stream.capacity), c₁) := by
      rw [ensureRoom, if_pos short, freed, room]
    by_cases passes : bytes.length ≤ c.stream.capacity
    · rw [decide_eq_true passes] at answer
      have fits : bytes.length ≤ c₁.stream.room := room ▸ passes
      refine ⟨_, writeRounds_granted none_left answer fits, still, size,
        .flushed short passes drained ?_⟩
      rw [(stored_of_fits fits).2, empty, List.nil_append]
    · rw [decide_eq_false passes] at answer
      exact ⟨c₁, writeRounds_refused none_left answer, still, size,
        .dropped (Nat.lt_of_not_le passes) drained empty⟩
  · have fits : bytes.length ≤ c.stream.room := Nat.le_of_not_lt short
    have answer : ensureRoom b bytes.length c = some (true, c) := by
      rw [ensureRoom, if_neg short]
    exact ⟨_, writeRounds_granted none_left answer fits, start, rfl,
      .stored fits rfl (stored_of_fits fits).2⟩

end Channel

/-- The hardware is a log of all bytes that were taken. -/
def Backend.logging : Backend (List UInt8) where
  commit c :=
    let (took, stream) := c.stream.popUpTo c.stream.held
    some { c with stream, hardware := c.hardware ++ took }
  free goal c :=
    let (took, stream) := c.stream.popUpTo c.stream.held
    some (decide (goal ≤ stream.room), { c with stream, hardware := c.hardware ++ took })

theorem Stream.capacity_popUpTo (n : Nat) (s : Stream) : (s.popUpTo n).2.capacity = s.capacity := by
  induction n generalizing s with
  | zero => rfl
  | succ n ih =>
    rw [popUpTo]
    cases popped : s.pop with
    | none => rfl
    | some first => exact (ih first.2).trans (capacity_pop popped)

theorem Stream.popUpTo_held (s : Stream) :
    (s.popUpTo s.held).1 = s.contents ∧ (s.popUpTo s.held).2.contents = [] := by
  obtain ⟨took, left⟩ := popUpTo_eq s.held s
  have all : s.contents.length ≤ s.held := Nat.le_of_eq s.length_contents
  exact ⟨took.trans (List.take_of_length_le all), left.trans (List.drop_of_length_le all)⟩

theorem Backend.logging_truthful : Backend.logging.Truthful (fun _ => True) id where
  free goal c _ := by
    obtain ⟨took, empty⟩ := c.stream.popUpTo_held
    let popped := c.stream.popUpTo c.stream.held
    exact ⟨{ c with stream := popped.2, hardware := c.hardware ++ popped.1 }, rfl, trivial,
      congrArg (c.hardware ++ ·) took, empty, Stream.capacity_popUpTo _ _⟩

def Channel.unused : Channel (List UInt8) where
  cpu := {}
  hardware := []
  stream := { exponent := 2 }

open Channel in
/-- Every write to a backend that answers truthfully ends. The bytes taken, followed by those still
buffered, have grown by the string if that is no longer than the stream, and not at all
otherwise. -/
theorem truthful_backend_passes_what_fits_the_stream {b : Backend σ} {fine : σ → Prop}
    {taken : σ → List UInt8} (truthful : b.Truthful fine taken) (bytes : List UInt8)
    {c : Channel σ} (start : fine c.hardware) :
    ∃ c', Channel.write b bytes c = some c' ∧ fine c'.hardware ∧
      c'.stream.capacity = c.stream.capacity ∧ Written taken bytes c c' ∧
      taken c'.hardware ++ c'.stream.contents = taken c.hardware ++ c.stream.contents ++
        if bytes.length ≤ c.stream.capacity then bytes else [] := by
  obtain ⟨c', wrote, still, size, written⟩ := write_truthful truthful bytes start
  exact ⟨c', wrote, still, size, written, written.passed⟩

/-- Four bytes pass a stream of that size, also when two others are in it. -/
theorem four_bytes_pass_after_two :
    ∃ c c', Channel.write Backend.logging [0x61, 0x62] .unused = some c ∧
      Channel.write Backend.logging [0x63, 0x64, 0x65, 0x66] c = some c' ∧
      c'.hardware ++ c'.stream.contents = [0x61, 0x62, 0x63, 0x64, 0x65, 0x66] := by
  obtain ⟨c, wrote, -, size, -, all⟩ := truthful_backend_passes_what_fits_the_stream
    Backend.logging_truthful [0x61, 0x62] (c := .unused) trivial
  obtain ⟨c', wrote', -, -, -, all'⟩ := truthful_backend_passes_what_fits_the_stream
    Backend.logging_truthful [0x63, 0x64, 0x65, 0x66] (c := c) trivial
  refine ⟨c, c', wrote, wrote', all'.trans ?_⟩
  rw [all, size]
  decide +kernel

/-- Six bytes are lost on an empty stream of four, which lets them pass as four and two. -/
theorem six_bytes_are_lost_on_four :
    Backend.logging.Truthful (fun _ => True) id ∧
    (∃ c', Channel.write Backend.logging [0x61, 0x62, 0x63, 0x64, 0x65, 0x66] .unused = some c' ∧
      c'.hardware ++ c'.stream.contents = []) ∧
    ∃ c', (Channel.write Backend.logging [0x61, 0x62, 0x63, 0x64] .unused).bind
        (Channel.write Backend.logging [0x65, 0x66]) = some c' ∧
      c'.hardware ++ c'.stream.contents = [0x61, 0x62, 0x63, 0x64, 0x65, 0x66] := by
  refine ⟨Backend.logging_truthful, ?_, ?_⟩
  · have seen : (Channel.write Backend.logging [0x61, 0x62, 0x63, 0x64, 0x65, 0x66] .unused).map
        (fun c => c.hardware ++ c.stream.contents) = some [] := by decide +kernel
    exact Option.map_eq_some_iff.mp seen
  · have seen : ((Channel.write Backend.logging [0x61, 0x62, 0x63, 0x64] .unused).bind
        (Channel.write Backend.logging [0x65, 0x66])).map
          (fun c => c.hardware ++ c.stream.contents) =
        some [0x61, 0x62, 0x63, 0x64, 0x65, 0x66] := by decide +kernel
    exact Option.map_eq_some_iff.mp seen

end CoopKernel
