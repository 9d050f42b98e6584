import CoopKernel.Spi.Clock

/-!
# Bus controllers

A controller has a data register and a flag that says whether the last byte is
through. One kind has four memory registers. The other answers from a script:
the flag by the number of the check, the data from a list that ends in 0xff.
-/

namespace CoopKernel.Spi

structure Registers where
  control : UInt8 := 0
  interrupts : UInt8 := 0
  status : UInt8 := 0
  data : UInt8 := 0
deriving DecidableEq, Repr

namespace Registers

def toList (r : Registers) : List UInt8 := [r.control, r.interrupts, r.status, r.data]

def poke (offset : Nat) (value : UInt8) (r : Registers) : Registers :=
  match offset with
  | 0 => { r with control := value }
  | 1 => { r with interrupts := value }
  | 2 => { r with status := value }
  | 3 => { r with data := value }
  | _ => r

/-- Enable the controller as the master of its bus. -/
def init (r : Registers) : Registers := { r with control := Clock.enableBit ||| Clock.masterBit }

def shutDown (r : Registers) : Registers := { r with control := 0 }

def isEnabled (r : Registers) : Bool := r.control &&& Clock.enableBit ≠ 0

/-- Bit 7 of the status. -/
def isReady (r : Registers) : Bool := r.status &&& 0x80 ≠ 0

end Registers

inductive Hardware where
  | scripted (ready : Nat → Bool) (replies : List UInt8)
  | registers (cpuHz : UInt32) (file : Registers)

structure Controller where
  hardware : Hardware := .scripted (fun _ => true) []
  /-- How often the flag was looked at. -/
  checks : Nat := 0

/-- How a wait for the flag ended, and the looks left over. -/
structure Wait where
  misses : Nat
  hit : Bool
  left : Nat
  controller : Controller

namespace Controller

/-- A flag that repeats a pattern. -/
def cycle (pattern : Array Bool) : Nat → Bool := fun n => pattern.getD (n % pattern.size) true

def isReady (c : Controller) : Bool :=
  match c.hardware with
  | .scripted ready _ => ready c.checks
  | .registers _ file => file.isReady

/-- Look at the flag until it is set, `left` times at most. -/
def await (misses : Nat) : Nat → Controller → Wait
  | 0, c => ⟨misses, false, 0, c⟩
  | left + 1, c =>
    if c.isReady then ⟨misses, true, left, { c with checks := c.checks + 1 }⟩
    else await (misses + 1) left { c with checks := c.checks + 1 }

def read (c : Controller) : UInt8 × Controller :=
  match c.hardware with
  | .scripted ready replies =>
    (replies.headD 0xff, { c with hardware := .scripted ready replies.tail })
  | .registers _ file => (file.data, c)

def write (byte : UInt8) (c : Controller) : Controller :=
  match c.hardware with
  | .scripted _ _ => c
  | .registers hz file => { c with hardware := .registers hz { file with data := byte } }

/-- The settings for a device that is clocked at `baud` at most. -/
def settings (mode : Mode) (baud : UInt32) (c : Controller) : UInt8 :=
  match c.hardware with
  | .scripted _ _ => mode.bits
  | .registers hz _ => Clock.control hz mode baud

def load (settings : UInt8) (c : Controller) : Controller :=
  match c.hardware with
  | .scripted _ _ => c
  | .registers hz file => { c with hardware := .registers hz { file with control := settings } }

def file? (c : Controller) : Option Registers :=
  match c.hardware with
  | .scripted _ _ => none
  | .registers _ file => some file

def modifyFile (f : Registers → Registers) (c : Controller) : Controller :=
  match c.hardware with
  | .scripted _ _ => c
  | .registers hz file => { c with hardware := .registers hz (f file) }

/-- Append to the replies of a scripted controller. -/
def respond (bytes : List UInt8) (c : Controller) : Controller :=
  match c.hardware with
  | .scripted ready replies => { c with hardware := .scripted ready (replies ++ bytes) }
  | .registers _ _ => c

/-- Replace the flag's script and start it over. -/
def reschedule (ready : Nat → Bool) (c : Controller) : Controller :=
  match c.hardware with
  | .scripted _ replies => { hardware := .scripted ready replies }
  | .registers _ _ => { c with checks := 0 }

end Controller

end CoopKernel.Spi
