import CoopKernel.Console.PacedUart
import CoopKernel.Settings

/-!
# The terminal

Of all consoles at most one is installed, and messages print through it. A print
holds the terminal until it is done. A message printed meanwhile, by a UART in
the middle of a transmission, is dropped: waiting for the holder would never end.
-/

namespace CoopKernel

structure Console where
  stream : Stream := { exponent := 6 }
  uart : PacedUart := {}

structure Terminal where
  consoles : Bank Nat Console := ⟨{}, #[]⟩
  installed : Option Nat := none
  locked : Bool := false

namespace Terminal

def uart (i : Nat) (t : Terminal) : PacedUart := (t.consoles.get i).uart

def setUart (i : Nat) (u : PacedUart) (t : Terminal) : Terminal :=
  { t with consoles := t.consoles.modify i ({ · with uart := u }) }

def modifyUart (i : Nat) (f : PacedUart → PacedUart) (t : Terminal) : Terminal :=
  t.setUart i (f (t.uart i))

def setStream (i : Nat) (s : Stream) (t : Terminal) : Terminal :=
  { t with consoles := t.consoles.modify i ({ · with stream := s }) }

/-- The UART of a console; `print` is what it prints of its own. -/
def transmitter (print : Line Terminal → Option (Line Terminal)) (i : Nat) :
    Transmitter Terminal where
  put byte l :=
    match (l.hardware.uart i).refuse? byte l.cpu.enabled with
    | some u => some (false, l.modify (setUart i u))
    | none => do
      let noted := l.modify (modifyUart i (PacedUart.note (.put byte l.cpu.enabled)))
      let printed ← if (l.hardware.uart i).reenters then print noted else some noted
      return (true, printed.modify (modifyUart i (PacedUart.accept byte)))
  hasRoom l :=
    let (room, u) := (l.hardware.uart i).look l.cpu.enabled
    some (room, l.modify (setUart i u))
  patience t := (t.uart i).patience

/-- Run a channel operation on a console. -/
def operate (print : Line Terminal → Option (Line Terminal)) (i : Nat)
    (f : Backend Terminal → Channel Terminal → Option (Channel Terminal)) (l : Line Terminal) :
    Option (Line Terminal) := do
  let c ← f (transmitter print i).backend { l with stream := (l.hardware.consoles.get i).stream }
  return { c.toLine with hardware := c.hardware.setStream i c.stream }

/-- What a reentrant UART prints. -/
def interjection : List (List UInt8) := [[0x21]]

/-- Print a message and flush it. `depth` bounds how far prints may nest. -/
def print : Nat → List (List UInt8) → Line Terminal → Option (Line Terminal)
  | depth, message, l =>
    if l.hardware.locked then some l
    else match l.hardware.installed, depth with
      | none, _ => some l
      | some _, 0 => none
      | some i, depth + 1 => do
        let held := l.modify ({ · with locked := true })
        let l ← operate (print depth interjection) i
          (fun b c => do b.commit (← c.writePieces b message)) held
        return l.modify ({ · with locked := false })

/-- The print in progress holds the terminal, so a second print inside it is dropped. -/
def message (level : Level) (pieces : List (List UInt8)) (l : Line Terminal) :
    Option (Line Terminal) :=
  if level.enabled then print 1 pieces l else some l

/-- Write to a console that is not installed; its UART may print to the one that is. -/
def write (i : Nat) (text : List UInt8) : Line Terminal → Option (Line Terminal) :=
  operate (message .error interjection) i fun b c => c.writeText b text

def commit (i : Nat) : Line Terminal → Option (Line Terminal) :=
  operate (message .error interjection) i fun b c => b.commit c

/-- Install a console, or none, and say whether one was installed before. -/
def install (i : Option Nat) (t : Terminal) : Bool × Terminal :=
  (t.installed.isSome, { t with installed := i })

end Terminal

end CoopKernel
