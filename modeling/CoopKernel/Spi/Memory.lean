import CoopKernel.Bank

/-!
# Buffers in memory

Buffers that a transfer fills, and buffers whose bytes are read while it runs,
are spans of one byte memory. Spans may overlap. Bytes that cannot change are
given as a list.
-/

namespace CoopKernel.Spi

abbrev Memory := Bank Nat UInt8

structure Span where
  start : Nat := 0
  length : Nat := 0
deriving DecidableEq, Repr, Inhabited

namespace Span

def rest : Span → Span
  | ⟨start, n + 1⟩ => ⟨start + 1, n⟩
  | s => s

def first? : Span → Option Nat
  | ⟨start, _ + 1⟩ => some start
  | _ => none

def addresses (s : Span) : List Nat := List.range' s.start s.length

def load (s : Span) (memory : Memory) : List UInt8 := s.addresses.map memory.get

/-- Overwrite the first bytes; what does not fit is left out. -/
def store (memory : Memory) : Span → List UInt8 → Memory
  | ⟨start, n + 1⟩, b :: bytes => store (memory.set start b) ⟨start + 1, n⟩ bytes
  | _, _ => memory

end Span

/-- What a transfer shifts out. -/
inductive Source where
  | bytes (data : List UInt8)
  | cells (span : Span)
deriving DecidableEq, Repr

namespace Source

def empty : Source := .bytes []

def length : Source → Nat
  | bytes data => data.length
  | cells span => span.length

def first? (memory : Memory) : Source → Option UInt8
  | bytes data => data.head?
  | cells span => span.first?.map memory.get

def rest : Source → Source
  | bytes data => .bytes data.tail
  | cells span => .cells span.rest

def load (memory : Memory) : Source → List UInt8
  | bytes data => data
  | cells span => span.load memory

end Source

end CoopKernel.Spi
