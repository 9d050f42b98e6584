import CoopKernel.Console.Stream.Contents

/-!
# Streams as bounded queues

Insertions and extractions in any order, from any head and tail that fit the
ring. A plain list with a bound gives the same answers and holds the same bytes,
also when the counters wrap.

The ring is stored in a bank, which has a cell for every number. An array of
exactly the stream's size would do: with every access to it checked, none is out
of range and the bytes are the same.
-/

namespace CoopKernel

inductive StreamOp where
  | insert (bytes : List UInt8)
  | extract
deriving DecidableEq, Repr

namespace StreamOp

inductive Answer where
  | stored (count : Nat)
  | taken (byte : Option UInt8)
deriving DecidableEq, Repr

def run : StreamOp → Stream → Answer × Stream
  | insert bytes, s => let (count, s') := s.push bytes; (.stored count, s')
  | extract, s => match s.pop with
    | none => (.taken none, s)
    | some (byte, s') => (.taken (some byte), s')

/-- The same on a list that may grow to `bound` bytes. -/
def spec (bound : Nat) : StreamOp → List UInt8 → Answer × List UInt8
  | insert bytes, held =>
    let count := min bytes.length (bound - held.length)
    (.stored count, held ++ bytes.take count)
  | extract, [] => (.taken none, [])
  | extract, byte :: rest => (.taken (some byte), rest)

def answers {σ : Type} (step : StreamOp → σ → Answer × σ) : List StreamOp → σ → List Answer × σ
  | [], s => ([], s)
  | op :: ops, s =>
    let (answer, s') := step op s
    let (rest, s'') := answers step ops s'
    (answer :: rest, s'')

end StreamOp

namespace Stream

theorem room_eq (s : Stream) : s.room = s.capacity - s.contents.length := by
  rw [length_contents]
  rfl

theorem capacity_pop {s s' : Stream} {byte : UInt8} (popped : s.pop = some (byte, s')) :
    s'.capacity = s.capacity := by
  unfold pop at popped
  split at popped
  · cases popped
  · obtain ⟨-, rfl⟩ := Prod.mk.inj (Option.some.inj popped)
    rfl

theorem isFull_iff (s : Stream) : s.isFull = true ↔ s.held = s.capacity := decide_eq_true_iff

/-- The stream answers as its contents do, and keeps its size. -/
theorem step_spec (op : StreamOp) (s : Stream) :
    (op.run s).1 = (op.spec s.capacity s.contents).1 ∧
      (op.run s).2.contents = (op.spec s.capacity s.contents).2 ∧
      (op.run s).2.capacity = s.capacity := by
  cases op with
  | insert bytes =>
    have count : (s.push bytes).1 = min bytes.length (s.capacity - s.contents.length) := by
      rw [← room_eq]
      rfl
    refine ⟨congrArg _ count, ?_, rfl⟩
    rw [StreamOp.spec, ← count]
    exact contents_push bytes s
  | extract =>
    cases popped : s.pop with
    | none =>
      have empty := s.pop_eq_none_iff.mp popped
      simp only [StreamOp.run, popped, empty, StreamOp.spec]
      exact ⟨trivial, trivial, trivial⟩
    | some first =>
      obtain ⟨byte, s'⟩ := first
      have split := contents_of_pop popped
      simp only [StreamOp.run, popped, split, StreamOp.spec]
      exact ⟨trivial, trivial, capacity_pop popped⟩

/-- By induction on the operations. -/
theorem answers_spec (ops : List StreamOp) (s : Stream) :
    let done := StreamOp.answers StreamOp.run ops s
    let model := StreamOp.answers (StreamOp.spec s.capacity) ops s.contents
    done.1 = model.1 ∧ done.2.contents = model.2 ∧ done.2.capacity = s.capacity := by
  induction ops generalizing s with
  | nil => exact ⟨rfl, rfl, rfl⟩
  | cons op ops ih =>
    obtain ⟨answer, contents, capacity⟩ := step_spec op s
    obtain ⟨rest, last, same⟩ := ih (op.run s).2
    rw [contents, capacity] at rest last
    simp only [StreamOp.answers, answer, rest]
    exact ⟨trivial, last, same.trans capacity⟩

/-- A position is the counter under this mask. -/
def mask (s : Stream) : UInt64 := UInt64.ofNat s.capacity - 1

theorem toNat_and_mask (s : Stream) (count : UInt64) :
    (count &&& s.mask).toNat = count.toNat % s.capacity := by
  have small : s.capacity < 2 ^ (64 : Nat) := Nat.lt_of_le_of_lt s.capacity_le (by decide)
  have positive := s.capacity_pos
  have width : s.mask.toNat = s.capacity - 1 := by
    simp only [mask, UInt64.toNat_sub, UInt64.toNat_ofNat', UInt64.toNat_one]
    omega
  rw [UInt64.toNat_and, width]
  exact Nat.and_two_pow_sub_one_eq_mod _ _

def cells (s : Stream) : List UInt8 := (List.range s.capacity).map s.ring.get

/-- A part of an array, unless it reaches out of it. -/
def part? (data : List UInt8) (first last : Nat) : Option (List UInt8) :=
  if first ≤ last ∧ last ≤ data.length then some ((data.take last).drop first) else none

/-- An array with a part replaced, unless the part reaches out of it or differs in length. -/
def replace? (data : List UInt8) (first last : Nat) (bytes : List UInt8) : Option (List UInt8) :=
  if first ≤ last ∧ last ≤ data.length ∧ bytes.length = last - first then
    some (data.take first ++ bytes ++ data.drop last)
  else none

/-- What an insertion leaves in the array: a part up to its end and a part from its start. -/
def insert? (bytes : List UInt8) (s : Stream) : Option (List UInt8) := do
  let count := min bytes.length s.room
  let start := (s.head &&& s.mask).toNat
  let first := min count (s.capacity - start)
  let data ← replace? s.cells start (start + first) (← part? bytes 0 first)
  replace? data 0 (count - first) (← part? bytes first count)

def oldest? (s : Stream) : Option UInt8 := s.cells[(s.tail &&& s.mask).toNat]?

/-- Copying into the ring is replacing a part of the array. -/
theorem replace_blit (ring : Bank Nat UInt8) (size start : Nat) (bytes : List UInt8)
    (inside : start + bytes.length ≤ size) :
    replace? ((List.range size).map ring.get) start (start + bytes.length) bytes =
      some ((List.range size).map (blit ring start bytes).get) := by
  rw [replace?, if_pos ⟨by omega, by simpa using inside, by omega⟩]
  refine congrArg some (List.ext_getElem ?_ fun i _ bound => ?_)
  · simp only [List.length_append, List.length_take, List.length_drop, List.length_map,
      List.length_range]
    omega
  · have below : i < size := by simpa using bound
    have before_start : min start size = start := by omega
    simp only [List.getElem_append, List.getElem_take, List.getElem_drop, List.getElem_map,
      List.getElem_range, List.length_append, List.length_take, List.length_map,
      List.length_range, before_start, get_blit,
      List.getD_eq_getElem?_getD]
    by_cases before : i < start
    · rw [dif_pos (by omega), dif_pos before, if_neg (by omega)]
    · by_cases within : i < start + bytes.length
      · rw [dif_pos within, dif_neg before, if_pos ⟨by omega, within⟩,
          List.getElem?_eq_getElem (by omega), Option.getD_some]
      · rw [dif_neg within, if_neg (by omega)]
        exact congrArg ring.get (by omega)

/-- An insertion stays inside the array and inside the bytes given. -/
theorem insert_in_range (bytes : List UInt8) (s : Stream) :
    s.insert? bytes = some (s.push bytes).2.cells := by
  have position : s.head.toNat % s.capacity < s.capacity := Nat.mod_lt _ s.capacity_pos
  have fits := s.held_add_room
  simp only [insert?, toNat_and_mask]
  change _ = some ((List.range s.capacity).map
    (s.spread (bytes.take (min bytes.length s.room))).get)
  rw [spread]
  generalize s.head.toNat % s.capacity = start at position
  have enough : min bytes.length s.room ≤ bytes.length := Nat.min_le_left ..
  have allowed : min bytes.length s.room ≤ s.room := Nat.min_le_right ..
  generalize min bytes.length s.room = count at enough allowed
  have upper : part? bytes 0 (min count (s.capacity - start)) =
      some ((bytes.take count).take (s.capacity - start)) := by
    rw [part?, if_pos ⟨by omega, by omega⟩, List.drop_zero, List.take_take, Nat.min_comm]
  have lower : part? bytes (min count (s.capacity - start)) count =
      some ((bytes.take count).drop (s.capacity - start)) := by
    rw [part?, if_pos ⟨by omega, enough⟩]
    by_cases wraps : s.capacity - start ≤ count
    · rw [Nat.min_eq_right wraps]
    · rw [List.drop_of_length_le (by rw [List.length_take]; omega),
        List.drop_of_length_le (by rw [List.length_take]; omega)]
  have first : ((bytes.take count).take (s.capacity - start)).length =
      min count (s.capacity - start) := by
    rw [List.length_take, List.length_take]
    omega
  have second : ((bytes.take count).drop (s.capacity - start)).length =
      count - min count (s.capacity - start) := by
    rw [List.length_drop, List.length_take]
    omega
  rw [upper, lower, ← second, ← first, cells]
  have placed := replace_blit s.ring s.capacity start ((bytes.take count).take (s.capacity - start))
    (by omega)
  have wrapped := replace_blit
    (blit s.ring start ((bytes.take count).take (s.capacity - start))) s.capacity 0
    ((bytes.take count).drop (s.capacity - start)) (by omega)
  rw [Nat.zero_add] at wrapped
  simp only [Option.bind_eq_bind, Option.bind_some, placed, wrapped]

/-- An extraction reads inside the array. -/
theorem oldest_in_range {s s' : Stream} {byte : UInt8} (popped : s.pop = some (byte, s')) :
    s.oldest? = some byte := by
  have position : s.tail.toNat % s.capacity < s.capacity := Nat.mod_lt _ s.capacity_pos
  have read : s.ring.get (s.tail.toNat % s.capacity) = byte := by
    unfold pop at popped
    split at popped
    · cases popped
    · exact (Prod.mk.inj (Option.some.inj popped)).1
  rw [oldest?, toNat_and_mask, cells, List.getElem?_map, List.getElem?_range position,
    Option.map_some, read]

/-- A stream answers as a list bounded by its size does and holds what that list
holds. Its fill level counts these bytes and stays within the size, and the next
insertion or extraction is in range, whichever it is. -/
theorem stream_is_a_bounded_fifo (s : Stream) (ops : List StreamOp) :
    let done := StreamOp.answers StreamOp.run ops s
    let model := StreamOp.answers (StreamOp.spec s.capacity) ops s.contents
    done.1 = model.1 ∧ done.2.contents = model.2 ∧ done.2.capacity = s.capacity ∧
      done.2.held = model.2.length ∧ done.2.held ≤ s.capacity ∧
      done.2.held + done.2.room = s.capacity ∧
      (done.2.isEmpty = true ↔ done.2.held = 0) ∧
      (done.2.isFull = true ↔ done.2.held = s.capacity) ∧
      (∀ bytes, done.2.insert? bytes = some (done.2.push bytes).2.cells) ∧
      ∀ byte rest, done.2.pop = some (byte, rest) → done.2.oldest? = some byte := by
  intro done model
  obtain ⟨same, contents, size⟩ : done.1 = model.1 ∧ done.2.contents = model.2 ∧
    done.2.capacity = s.capacity := answers_spec ops s
  have full := done.2.isFull_iff
  rw [size] at full
  refine ⟨same, contents, size, ?_, ?_, ?_, done.2.isEmpty_iff, full,
    fun bytes => insert_in_range bytes _, fun _ _ => oldest_in_range⟩
  · rw [← contents, length_contents]
  · exact size ▸ done.2.held_le
  · exact size ▸ done.2.held_add_room

-- The tail is the largest word and the head has wrapped past it.
example :
    (StreamOp.answers StreamOp.run [.insert [1, 2, 3], .extract, .extract, .extract]
      { exponent := 2, head := 1, tail := 0 - 1, held_le := by decide }).1 =
    [.stored 2, .taken (some 0), .taken (some 0), .taken (some 1)] := by decide

end Stream

end CoopKernel
