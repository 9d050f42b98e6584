import CoopKernel.Bank

/-!
# Byte streams

A ring buffer whose size is a power of two. Head and tail count bytes ever
written and read in 64-bit words that wrap; their difference is the number of
bytes held, and their remainders are positions in the ring.
-/

namespace CoopKernel

-- Powers of numbers here are the built-in ones, whatever else a reader of this module imports.
local instance builtInPow : Pow Nat Nat := instPowNat

structure Stream where
  exponent : Nat
  exponent_lt : exponent < 64 := by decide
  ring : Bank Nat UInt8 := ⟨0, #[]⟩
  head : UInt64 := 0
  tail : UInt64 := 0
  held_le : (head - tail).toNat ≤ 2 ^ exponent := by simp

namespace Stream

/-- An empty stream; sizes that are not a power of two have none. -/
def ofSize? (size : Nat) : Option Stream :=
  if h : size.log2 < 64 ∧ 2 ^ size.log2 = size then
    some { exponent := size.log2, exponent_lt := h.1 }
  else none

def capacity (s : Stream) : Nat := 2 ^ s.exponent

def held (s : Stream) : Nat := (s.head - s.tail).toNat

def room (s : Stream) : Nat := s.capacity - s.held

def isEmpty (s : Stream) : Bool := s.head = s.tail

def isFull (s : Stream) : Bool := s.held = s.capacity

theorem capacity_pos (s : Stream) : 0 < s.capacity := Nat.two_pow_pos _

theorem capacity_le (s : Stream) : s.capacity ≤ 2 ^ (63 : Nat) :=
  Nat.pow_le_pow_right (by decide) (by have := s.exponent_lt; omega)

/-- A word that wraps keeps its position in the ring. -/
theorem capacity_dvd (s : Stream) : s.capacity ∣ 2 ^ (64 : Nat) :=
  Nat.pow_dvd_pow 2 (by have := s.exponent_lt; omega)

theorem held_add_room (s : Stream) : s.held + s.room = s.capacity :=
  Nat.add_sub_of_le s.held_le

theorem isEmpty_iff (s : Stream) : s.isEmpty = true ↔ s.held = 0 := by
  simp only [isEmpty, held, decide_eq_true_eq]
  constructor
  · intro h; simp [h]
  · intro h
    have := UInt64.toNat_inj.mp (h.trans (UInt64.toNat_zero).symm)
    have : s.head - s.tail + s.tail = 0 + s.tail := by rw [this]
    simpa using this

/-- The difference grows with the head, as long as it stays in a word. -/
theorem toNat_add_sub (head tail : UInt64) (n : Nat)
    (h : (head - tail).toNat + n < 2 ^ (64 : Nat)) :
    (head + UInt64.ofNat n - tail).toNat = (head - tail).toNat + n := by
  simp only [UInt64.toNat_sub, UInt64.toNat_add, UInt64.toNat_ofNat'] at h ⊢
  have := head.toNat_lt
  have := tail.toNat_lt
  omega

/-- The difference shrinks as the tail grows, down to zero. -/
theorem toNat_sub_succ (head tail : UInt64) (h : 0 < (head - tail).toNat) :
    (head - (tail + 1)).toNat = (head - tail).toNat - 1 := by
  simp only [UInt64.toNat_sub, UInt64.toNat_add, UInt64.toNat_one] at h ⊢
  have := head.toNat_lt
  have := tail.toNat_lt
  omega

/-- Copy bytes to consecutive positions. -/
def blit (ring : Bank Nat UInt8) (position : Nat) : List UInt8 → Bank Nat UInt8
  | [] => ring
  | b :: rest => blit (ring.set position b) (position + 1) rest

/-- The ring with the bytes at the head: up to the end of the ring, then from its start. -/
def spread (bytes : List UInt8) (s : Stream) : Bank Nat UInt8 :=
  let start := s.head.toNat % s.capacity
  let first := s.capacity - start
  blit (blit s.ring start (bytes.take first)) 0 (bytes.drop first)

/-- Store as many of the bytes as fit. -/
def push (bytes : List UInt8) (s : Stream) : Nat × Stream :=
  let count := min bytes.length s.room
  (count,
    { s with
      ring := s.spread (bytes.take count)
      head := s.head + UInt64.ofNat count
      held_le := by
        have := s.held_add_room
        have := s.capacity_le
        rw [toNat_add_sub _ _ _ (by change s.held + count < _; omega)]
        change s.held + count ≤ s.capacity
        omega })

/-- Take the oldest byte. -/
def pop (s : Stream) : Option (UInt8 × Stream) :=
  if h : s.isEmpty then none
  else
    some (s.ring.get (s.tail.toNat % s.capacity),
      { s with
        tail := s.tail + 1
        held_le := by
          have hs : s.held ≠ 0 := fun e => h (s.isEmpty_iff.mpr e)
          rw [toNat_sub_succ _ _ (Nat.pos_of_ne_zero hs)]
          exact Nat.le_trans (Nat.sub_le _ _) s.held_le })

/-- Take up to `n` bytes, oldest first. -/
def popUpTo : Nat → Stream → List UInt8 × Stream
  | 0, s => ([], s)
  | n + 1, s =>
    match s.pop with
    | none => ([], s)
    | some (b, s') =>
      let (rest, last) := popUpTo n s'
      (b :: rest, last)

end Stream

end CoopKernel
