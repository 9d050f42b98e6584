import CoopKernel.Console.Stream.Basic
import CoopKernel.Cpu

/-!
# Buffered writing

A channel buffers bytes in a stream and leaves the rest to a backend, which
frees space on request and pushes what is buffered towards the hardware. Bytes
that do not fit are dropped once the backend gives up.

A call that waits for hardware may never return; its result is then `none`.
-/

namespace CoopKernel

/-- The CPU and the hardware behind a channel. -/
structure Line (σ : Type) where
  cpu : Cpu
  hardware : σ

structure Channel (σ : Type) extends Line σ where
  stream : Stream

structure Backend (σ : Type) where
  /-- Push what is buffered towards the hardware. -/
  commit : Channel σ → Option (Channel σ)
  /-- Free space for that many bytes, and say whether it was possible. -/
  free : Nat → Channel σ → Option (Bool × Channel σ)

namespace Channel

variable {σ : Type}

/-- Store what fits, in a critical section. -/
def store (bytes : List UInt8) (c : Channel σ) : Nat × Channel σ :=
  let (count, stream) := c.stream.push bytes
  (count, { c with stream, cpu := c.cpu.disable.restore c.cpu.enabled })

/-- Ask for room when the bytes do not fit; `false` means that they are given up. -/
def ensureRoom (b : Backend σ) (needed : Nat) (c : Channel σ) : Option (Bool × Channel σ) :=
  if c.stream.room < needed then b.free needed c else some (true, c)

/-- Each round stores a byte or gives up, so `rounds` may be the number of bytes. -/
def writeRounds (b : Backend σ) : Nat → List UInt8 → Channel σ → Option (Channel σ)
  | 0, _, c => some c
  | _, [], c => some c
  | rounds + 1, bytes, c =>
    match ensureRoom b bytes.length c with
    | none => none
    | some (false, c) => some c
    | some (true, c) =>
      let (stored, c) := c.store bytes
      if stored = 0 then some c else writeRounds b rounds (bytes.drop stored) c

def write (b : Backend σ) (bytes : List UInt8) (c : Channel σ) : Option (Channel σ) :=
  writeRounds b bytes.length bytes c

def newline : UInt8 := 0x0a

def lineEnd : List UInt8 := [0x0d, newline]

/-- A newline is written as a carriage return and a newline. -/
def writeByte (b : Backend σ) (byte : UInt8) (c : Channel σ) : Option (Channel σ) :=
  write b (if byte = newline then lineEnd else [byte]) c

/-- The first line of a text and the lines after it. -/
def splitLines : List UInt8 → List UInt8 × List (List UInt8)
  | [] => ([], [])
  | byte :: rest =>
    let (first, others) := splitLines rest
    if byte = newline then ([], first :: others) else (byte :: first, others)

def writeLines (b : Backend σ) : List (List UInt8) → Channel σ → Option (Channel σ)
  | [], c => some c
  | line :: rest, c => do
    let c ← write b lineEnd c
    let c ← write b line c
    writeLines b rest c

def writeText (b : Backend σ) (text : List UInt8) (c : Channel σ) : Option (Channel σ) := do
  let (first, others) := splitLines text
  writeLines b others (← write b first c)

/-- A message comes in pieces, each written on its own. -/
def writePieces (b : Backend σ) : List (List UInt8) → Channel σ → Option (Channel σ)
  | [], c => some c
  | piece :: rest, c => do writePieces b rest (← writeText b piece c)

end Channel

end CoopKernel
