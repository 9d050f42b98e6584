import CoopKernel.Console.Channel

/-!
# Draining a channel into a transmitter

A transmitter takes one byte at a time and may refuse it. Between refusals the
caller's interrupt flag is restored and the transmitter is watched until it
reports room; bytes are only offered with interrupts disabled.
-/

namespace CoopKernel

structure Transmitter (σ : Type) where
  /-- Offer a byte; a refused byte has no effect. -/
  put : UInt8 → Line σ → Option (Bool × Line σ)
  /-- Whether there is room for a byte. -/
  hasRoom : Line σ → Option (Bool × Line σ)
  /-- A bound on refusals, and on looks without room, before a byte is taken. -/
  patience : σ → Nat

namespace Line

variable {σ : Type}

def modify (f : σ → σ) (l : Line σ) : Line σ := { l with hardware := f l.hardware }

def disable (l : Line σ) : Line σ := { l with cpu := l.cpu.disable }

def restore (saved : Bool) (l : Line σ) : Line σ := { l with cpu := l.cpu.restore saved }

end Line

namespace Transmitter

variable {σ : Type}

def awaitRoom (t : Transmitter σ) : Nat → Line σ → Option (Line σ)
  | 0, _ => none
  | looks + 1, l =>
    match t.hasRoom l with
    | none => none
    | some (true, l) => some l
    | some (false, l) => awaitRoom t looks l

/-- Offer a byte until it is taken; `saved` is the caller's interrupt flag. -/
def send (t : Transmitter σ) (saved : Bool) (byte : UInt8) : Nat → Line σ → Option (Line σ)
  | 0, _ => none
  | offers + 1, l =>
    match t.put byte l with
    | none => none
    | some (true, l) => some l
    | some (false, l) =>
      let l := l.restore saved
      match awaitRoom t (t.patience l.hardware + 1) l with
      | none => none
      | some l => send t saved byte offers l.disable

/-- Send up to `n` bytes of the stream. -/
def drain (t : Transmitter σ) (saved : Bool) : Nat → Channel σ → Option (Channel σ)
  | 0, c => some c
  | n + 1, c =>
    match c.stream.pop with
    | none => some c
    | some (byte, stream) =>
      match send t saved byte (t.patience c.hardware + 1) c.toLine with
      | none => none
      | some l => drain t saved n { l with stream }

def commit (t : Transmitter σ) (c : Channel σ) : Option (Channel σ) := do
  let saved := c.cpu.enabled
  let c ← drain t saved c.stream.held { c with cpu := c.cpu.disable }
  return { c with cpu := c.cpu.restore saved }

/-- Everything is sent whenever room is wanted, so there always is some. -/
def backend (t : Transmitter σ) : Backend σ where
  commit := t.commit
  free _ c := do return (true, ← t.commit c)

end Transmitter

end CoopKernel
