import CoopKernel.Console.ScriptedBackend
import CoopKernel.Proofs.CallRecords
import CoopKernel.Proofs.InterruptFlag
import CoopKernel.Proofs.TruthfulBackend

/-!
# What any backend lets pass

A backend may take as many bytes out of the front of the stream as it likes and
give any answer: it may refuse after it made room, or promise room that it did
not make. Whatever it does, a write ends and no byte is lost in the middle, sent
twice or moved: what was taken and what is buffered grow by a front part of the
string. All that the answers decide is how long that part is.
-/

namespace CoopKernel

variable {σ : Type}

/-- A request for room returns, and all it does to the stream is to take bytes out of its front. -/
structure Backend.Extracts (b : Backend σ) (fine : σ → Prop) : Prop where
  free : ∀ (goal : Nat) {c : Channel σ}, fine c.hardware →
    ∃ answer c', b.free goal c = some (answer, c') ∧ fine c'.hardware ∧
      ∃ taken, c.stream.contents = taken ++ c'.stream.contents

namespace RoomCall

/-- The bytes that are in the stream before the call and not after it. -/
def took (call : RoomCall σ) : List UInt8 :=
  call.found.stream.contents.take (call.found.stream.held - call.left.stream.held)

theorem took_append {call : RoomCall σ} {taken : List UInt8}
    (split : call.found.stream.contents = taken ++ call.left.stream.contents) :
    call.took ++ call.left.stream.contents = call.found.stream.contents := by
  have count : call.found.stream.held - call.left.stream.held = taken.length := by
    have lengths := congrArg List.length split
    simp only [List.length_append, Stream.length_contents] at lengths
    omega
  rw [took, count, split, List.take_left]

def Granted (call : RoomCall σ) : Prop := call.answer = true ∧ call.left.stream.isFull = false

def KeptFlag (call : RoomCall σ) : Prop := call.left.cpu.enabled = call.found.cpu.enabled

end RoomCall

namespace Channel

/-- A write of `bytes` that made these calls has passed on the front part `passed`. -/
structure Fed (bytes passed : List UInt8) (c c' : Channel σ) (calls : List (RoomCall σ)) :
    Prop where
  front : passed <+: bytes
  conserved : calls.flatMap RoomCall.took ++ c'.stream.contents = c.stream.contents ++ passed
  whole : passed = bytes ↔ ∀ last ∈ calls.getLast?, last.Granted
  /-- The goal of a call is the number of bytes that are neither taken nor buffered by then. -/
  asked : ∀ earlier call later, calls = earlier ++ call :: later →
    call.found.stream.room < call.goal ∧ call.goal ≤ bytes.length ∧
      earlier.flatMap RoomCall.took ++ call.found.stream.contents =
        c.stream.contents ++ bytes.take (bytes.length - call.goal)
  flag : ∀ earlier call later, calls = earlier ++ call :: later →
    (∀ other ∈ earlier, other.KeptFlag) → call.found.cpu.enabled = c.cpu.enabled

variable {b : Backend σ} {fine : σ → Prop} {c c' : Channel σ} {bytes passed : List UInt8}

theorem contents_store (bytes : List UInt8) (c : Channel σ) :
    (c.store bytes).2.stream.contents = c.stream.contents ++ bytes.take (c.store bytes).1 :=
  Stream.contents_push bytes c.stream

/-- Some of the bytes are stored unless the stream is full. -/
theorem stored_iff_not_full (some_left : bytes ≠ []) :
    (c.store bytes).1 ≠ 0 ↔ c.stream.isFull = false := by
  have count : (c.store bytes).1 = min bytes.length c.stream.room := rfl
  have total := c.stream.held_add_room
  have length : bytes.length ≠ 0 := fun zero => some_left (List.length_eq_zero_iff.mp zero)
  rw [count, ← Bool.not_eq_true, Stream.isFull_iff]
  omega

/-- Nobody was asked, and all was stored. -/
theorem fed_of_stored (stored : c'.stream.contents = c.stream.contents ++ bytes) :
    Fed bytes bytes c c' [] where
  front := List.prefix_rfl
  conserved := stored
  whole := by simp
  asked earlier call later split := by simp at split
  flag earlier call later split := by simp at split

variable {call : RoomCall σ} {calls : List (RoomCall σ)}

/-- The string is given up after the call. -/
theorem fed_of_denied (some_left : bytes ≠ []) (found : call.found = c)
    (goal : call.goal = bytes.length) (short : c.stream.room < bytes.length)
    (conserved : call.took ++ call.left.stream.contents = c.stream.contents)
    (denied : ¬ call.Granted) (left : c'.stream.contents = call.left.stream.contents) :
    Fed bytes [] c c' [call] where
  front := List.nil_prefix
  conserved := by simpa [left] using conserved
  whole := by simpa [denied] using some_left.symm
  asked earlier other later split := by
    obtain ⟨rfl, rfl⟩ := split_single split
    subst found
    simpa [goal] using short
  flag earlier other later split _ := by
    obtain ⟨-, rfl⟩ := split_single split
    rw [found]

/-- What fits after the call is stored, and the write goes on with the rest. -/
theorem Fed.after {count : Nat} (found : call.found = c) (goal : call.goal = bytes.length)
    (short : c.stream.room < bytes.length)
    (conserved : call.took ++ call.left.stream.contents = c.stream.contents)
    (granted : call.Granted) (stored : (call.left.store bytes).1 = count)
    (rest : Fed (bytes.drop count) passed (call.left.store bytes).2 c' calls) :
    Fed bytes (bytes.take count ++ passed) c c' (call :: calls) := by
  have begun : call.took ++ (call.left.store bytes).2.stream.contents =
      c.stream.contents ++ bytes.take count := by
    rw [contents_store, stored, ← List.append_assoc, conserved]
  have small : count ≤ bytes.length := by
    rw [← stored]
    exact Nat.min_le_left ..
  constructor
  case front =>
    have longer := (List.prefix_append_right_inj (bytes.take count)).mpr rest.front
    rwa [List.take_append_drop] at longer
  case conserved =>
    rw [List.flatMap_cons, List.append_assoc, rest.conserved, ← List.append_assoc, begun,
      List.append_assoc]
  case whole =>
    have split := List.take_append_drop count bytes
    have same : bytes.take count ++ passed = bytes ↔ passed = bytes.drop count := by
      constructor
      · intro all
        exact List.append_cancel_left (all.trans split.symm)
      · rintro rfl
        exact split
    rw [same, rest.whole]
    cases calls with
    | nil => simpa using granted
    | cons next later => simp
  case asked =>
    rintro earlier other later split
    rcases List.cons_eq_append_iff.mp split with ⟨rfl, first⟩ | ⟨earlier, rfl, others⟩
    · obtain ⟨rfl, -⟩ := List.cons.inj first
      subst found
      simpa [goal] using short
    · obtain ⟨unfit, few, so_far⟩ := rest.asked earlier other later others
      rw [List.length_drop] at few so_far
      refine ⟨unfit, by omega, ?_⟩
      have total : bytes.length - other.goal = count + (bytes.length - count - other.goal) := by
        omega
      rw [List.flatMap_cons, List.append_assoc, so_far, ← List.append_assoc, begun, total,
        List.take_add, List.append_assoc]
  case flag =>
    rintro earlier other later split kept
    rcases List.cons_eq_append_iff.mp split with ⟨rfl, first⟩ | ⟨earlier, rfl, others⟩
    · obtain ⟨rfl, -⟩ := List.cons.inj first
      rw [found]
    · have same := kept call List.mem_cons_self
      rw [rest.flag earlier other later others fun e mem => kept e (List.mem_cons_of_mem _ mem),
        enabled_store, same, found]

theorem writeRounds_nil {b : Backend σ} (rounds : Nat) (c : Channel σ) :
    writeRounds b rounds [] c = some c := by
  cases rounds <;> rfl

/-- A round in which the write is not given up. -/
theorem writeRounds_succ {b : Backend σ} (rounds : Nat) (some_left : bytes ≠ [])
    (granted : ensureRoom b bytes.length c = some (true, c')) :
    writeRounds b (rounds + 1) bytes c =
      if (c'.store bytes).1 = 0 then some (c'.store bytes).2
      else writeRounds b rounds (bytes.drop (c'.store bytes).1) (c'.store bytes).2 := by
  rw [writeRounds, granted]
  exact fun none_left => some_left none_left

theorem ensureRoom_watched {needed : Nat} {answer : Bool} {left : Channel σ}
    (short : c.stream.room < needed) (freed : b.free needed c = some (answer, left))
    (old : List (RoomCall σ)) :
    ensureRoom b.watched needed (c.watched old) =
      some (answer, left.watched (old ++ [⟨needed, c, answer, left⟩])) := by
  have short' : (c.watched old).stream.room < needed := short
  have bare : (c.watched old).bare = c := rfl
  simp only [ensureRoom, if_pos short', Backend.watched, bare, freed]
  rfl

/-- As many rounds as bytes are one at least. -/
theorem rounds_of_succ (some_left : bytes ≠ []) {result : Option (Channel σ)}
    (succ : ∀ rounds, bytes.length ≤ rounds + 1 →
      writeRounds b (rounds + 1) bytes c = result) :
    ∀ rounds, bytes.length ≤ rounds → writeRounds b rounds bytes c = result := by
  intro rounds enough
  cases rounds with
  | zero => exact absurd (List.length_eq_zero_iff.mp (Nat.le_zero.mp enough)) some_left
  | succ rounds => exact succ rounds enough

/-- A write returns whenever it has as many rounds as bytes, and more make no difference. -/
def Feeds (b : Backend σ) (fine : σ → Prop) (bytes : List UInt8) (c : Channel σ)
    (old : List (RoomCall σ)) : Prop :=
  ∃ c' calls passed,
    (∀ rounds, bytes.length ≤ rounds →
      writeRounds b.watched rounds bytes (c.watched old) = some (c'.watched (old ++ calls))) ∧
    fine c'.hardware ∧ Fed bytes passed c c' calls

variable {old : List (RoomCall σ)}

theorem feeds_of_nil (start : fine c.hardware) : Feeds b fine [] c old := by
  refine ⟨c, [], [], fun rounds _ => ?_, start, fed_of_stored (List.append_nil _).symm⟩
  rw [List.append_nil, writeRounds_nil]

theorem feeds_of_fits (some_left : bytes ≠ []) (start : fine c.hardware)
    (fits : bytes.length ≤ c.stream.room) : Feeds b fine bytes c old := by
  have granted : ensureRoom b.watched bytes.length (c.watched old) = some (true, c.watched old) :=
    if_neg (Nat.not_lt_of_le fits)
  refine ⟨(c.store bytes).2, [], bytes, ?_, start, fed_of_stored (stored_of_fits fits).2⟩
  apply rounds_of_succ some_left
  intro rounds _
  rw [writeRounds_granted some_left granted fits, List.append_nil]
  rfl

/-- Room is asked for: the answer, and what is stored after it, say whether the write goes on. -/
theorem feeds_of_asked (some_left : bytes ≠ []) (short : c.stream.room < bytes.length)
    {answer : Bool} {left : Channel σ} (freed : b.free bytes.length c = some (answer, left))
    (still : fine left.hardware)
    (conserved : RoomCall.took ⟨bytes.length, c, answer, left⟩ ++ left.stream.contents =
      c.stream.contents)
    (rest : (left.store bytes).1 ≠ 0 →
      Feeds b fine (bytes.drop (left.store bytes).1) (left.store bytes).2
        (old ++ [⟨bytes.length, c, answer, left⟩])) :
    Feeds b fine bytes c old := by
  let call : RoomCall σ := ⟨bytes.length, c, answer, left⟩
  have asked := ensureRoom_watched short freed old
  cases answer with
  | false =>
    refine ⟨left, [call], [], ?_, still, ?_⟩
    · apply rounds_of_succ some_left
      intro rounds _
      exact writeRounds_refused some_left asked
    · exact fed_of_denied some_left rfl rfl short conserved (fun h => by cases h.1) rfl
  | true =>
    have on : ∀ rounds, writeRounds b.watched (rounds + 1) bytes (c.watched old) =
        if (left.store bytes).1 = 0 then some ((left.store bytes).2.watched (old ++ [call]))
        else writeRounds b.watched rounds (bytes.drop (left.store bytes).1)
          ((left.store bytes).2.watched (old ++ [call])) :=
      fun rounds => writeRounds_succ rounds some_left asked
    -- Room was promised. Whether it was made shows in what can be stored.
    by_cases stuck : (left.store bytes).1 = 0
    · simp only [if_pos stuck] at on
      refine ⟨(left.store bytes).2, [call], [], ?_, still, ?_⟩
      · apply rounds_of_succ some_left
        intro rounds _
        exact on rounds
      · apply fed_of_denied some_left rfl rfl short conserved
        · rintro ⟨-, room⟩
          exact (stored_iff_not_full some_left).mpr room stuck
        · simp [contents_store, stuck]
    · simp only [if_neg stuck] at on
      obtain ⟨c', calls, passed, wrote, last, fed⟩ := rest stuck
      have granted : call.Granted := ⟨rfl, (stored_iff_not_full some_left).mp stuck⟩
      refine ⟨c', call :: calls, _, ?_, last, fed.after rfl rfl short conserved granted rfl⟩
      apply rounds_of_succ some_left
      intro rounds enough
      have fewer : (bytes.drop (left.store bytes).1).length ≤ rounds := by
        simp only [List.length_drop]
        omega
      rw [on rounds, wrote rounds fewer, List.append_assoc]
      rfl

/-- By induction on the length of the string: a round ends the write or stores a byte. -/
theorem write_feeds (extracts : b.Extracts fine) (n : Nat) (bytes : List UInt8)
    (length : bytes.length ≤ n) {c : Channel σ} (start : fine c.hardware)
    (old : List (RoomCall σ)) : Feeds b fine bytes c old := by
  induction n generalizing bytes c old with
  | zero =>
    obtain rfl : bytes = [] := List.length_eq_zero_iff.mp (Nat.le_zero.mp length)
    exact feeds_of_nil start
  | succ n ih =>
    by_cases none_left : bytes = []
    · subst none_left
      exact feeds_of_nil start
    · by_cases short : c.stream.room < bytes.length
      · obtain ⟨answer, left, freed, still, taken, split⟩ := extracts.free bytes.length start
        apply feeds_of_asked none_left short freed still (RoomCall.took_append split)
        intro stored
        apply ih
        · simp only [List.length_drop]
          omega
        · exact still
      · exact feeds_of_fits none_left start (Nat.le_of_not_lt short)

end Channel

theorem ScriptedBackend.extracts : ScriptedBackend.backend.Extracts fun _ => True where
  free goal c _ := by
    obtain ⟨took, left⟩ := Stream.popUpTo_eq (c.hardware.room.headD (0, false)).1 c.stream
    refine ⟨_, _, rfl, trivial, (c.stream.popUpTo (c.hardware.room.headD (0, false)).1).1, ?_⟩
    change _ = _ ++ (c.stream.popUpTo (c.hardware.room.headD (0, false)).1).2.contents
    rw [took, left, List.take_append_drop]

/-- An empty stream of two bytes before a backend that grants every request: it takes nothing, then
one byte, then nothing. -/
def Channel.scripted : Channel ScriptedBackend where
  cpu := {}
  hardware := { room := [(0, true), (1, true), (0, true)] }
  stream := { exponent := 1 }

open Channel in
/-- Every write ends, whatever the backend answers, and would not go on with more rounds. The bytes
taken, followed by those still buffered, have grown by a front part of the string. It is the whole
string unless the last request for room was refused or left the stream full. Room is only asked for
when the bytes that are left do not fit, for all of them, and with the caller's flag, unless an
earlier request has changed that. -/
theorem any_backend_passes_a_front_part {b : Backend σ} {fine : σ → Prop}
    (extracts : b.Extracts fine) (bytes : List UInt8) {c : Channel σ} (start : fine c.hardware) :
    ∃ c' calls passed, write b bytes c = some c' ∧
      (∀ rounds, bytes.length ≤ rounds → writeRounds b rounds bytes c = some c') ∧
      write b.watched bytes (c.watched []) = some (c'.watched calls) ∧ fine c'.hardware ∧
      passed <+: bytes ∧
      calls.flatMap RoomCall.took ++ c'.stream.contents = c.stream.contents ++ passed ∧
      (passed = bytes ↔
        ∀ last ∈ calls.getLast?, last.answer = true ∧ last.left.stream.isFull = false) ∧
      ∀ earlier call later, calls = earlier ++ call :: later →
        call.found.stream.room < call.goal ∧ call.goal ≤ bytes.length ∧
        earlier.flatMap RoomCall.took ++ call.found.stream.contents =
          c.stream.contents ++ bytes.take (bytes.length - call.goal) ∧
        ((∀ other ∈ earlier, other.left.cpu.enabled = other.found.cpu.enabled) →
          call.found.cpu.enabled = c.cpu.enabled) := by
  obtain ⟨c', calls, passed, wrote, still, fed⟩ :=
    write_feeds extracts bytes.length bytes (Nat.le_refl _) start []
  have bare : ∀ rounds, bytes.length ≤ rounds → writeRounds b rounds bytes c = some c' := by
    intro rounds enough
    have same := bare_writeRounds (b := b) rounds bytes (c.watched [])
    rw [wrote rounds enough] at same
    exact same.symm
  refine ⟨c', calls, passed, bare _ (Nat.le_refl _), bare, wrote _ (Nat.le_refl _), still,
    fed.front, fed.conserved, fed.whole, fun earlier call later split => ?_⟩
  obtain ⟨short, few, so_far⟩ := fed.asked earlier call later split
  exact ⟨short, few, so_far, fed.flag earlier call later split⟩

/-- The third request is granted on a stream of two that stays full, and the last byte is lost. -/
theorem fourth_byte_is_lost_on_two :
    ∃ (c' : Channel ScriptedBackend) (calls : List (RoomCall ScriptedBackend)),
      Channel.write ScriptedBackend.backend [0x61, 0x62, 0x63, 0x64] .scripted = some c' ∧
      calls.map RoomCall.goal = [4, 2, 1] ∧
      calls.flatMap RoomCall.took ++ c'.stream.contents = [0x61, 0x62, 0x63] := by
  obtain ⟨c', calls, -, wrote, -, watched, -⟩ :=
    any_backend_passes_a_front_part ScriptedBackend.extracts [0x61, 0x62, 0x63, 0x64]
      (c := .scripted) trivial
  have seen : (Channel.write ScriptedBackend.backend.watched [0x61, 0x62, 0x63, 0x64]
      (Channel.scripted.watched [])).map (fun c => (c.hardware.calls.map RoomCall.goal,
        c.hardware.calls.flatMap RoomCall.took ++ c.stream.contents)) =
      some ([4, 2, 1], [0x61, 0x62, 0x63]) := by decide +kernel
  simp only [watched, Option.map_some, Option.some.injEq, Prod.mk.injEq] at seen
  exact ⟨c', calls, wrote, seen⟩

end CoopKernel
