import CoopKernel.Console.Transmitter

/-!
# The mini UART

A transmitter in two blocks of 32-bit registers. Registers are plain memory
here; a register is named by its byte offset in its block.
-/

namespace CoopKernel

structure MiniUart where
  aux : Bank Nat UInt32 := ⟨0, #[]⟩
  gpio : Bank Nat UInt32 := ⟨0, #[]⟩

namespace MiniUart

def gpioBase : Nat := 0x3f200000
def auxBase : Nat := 0x3f215000

def auxSize : Nat := 0x80
def gpioSize : Nat := 0xa0

def setAux (offset : Nat) (value : UInt32) (u : MiniUart) : MiniUart :=
  { u with aux := u.aux.set (offset / 4) value }

def setGpio (offset : Nat) (value : UInt32) (u : MiniUart) : MiniUart :=
  { u with gpio := u.gpio.set (offset / 4) value }

def getAux (offset : Nat) (u : MiniUart) : UInt32 := u.aux.get (offset / 4)

def getGpio (offset : Nat) (u : MiniUart) : UInt32 := u.gpio.get (offset / 4)

/-- Function select bits of pins 14 and 15. -/
def pinFunctions : UInt32 := 0x3f000

/-- Both pins carry the UART. -/
def pinsToUart (select : UInt32) : UInt32 := (select &&& ~~~ pinFunctions) ||| 0x12000

/-- Set the line to 115200 baud and 8 bits, the pins to the UART, and start the transmitter. -/
def init (u : MiniUart) : MiniUart :=
  let u := u.setAux 0x04 1 |>.setAux 0x60 0 |>.setAux 0x44 0 |>.setAux 0x4c 3 |>.setAux 0x50 0
    |>.setAux 0x48 0xc6 |>.setAux 0x68 270
  let u := u.setGpio 0x04 (pinsToUart (u.getGpio 0x04))
  u.setGpio 0x94 0 |>.setGpio 0x98 0xc000 |>.setGpio 0x98 0 |>.setAux 0x60 3

/-- Bit 5 of the line status: there is room for a byte. -/
def hasRoom (u : MiniUart) : Bool := u.getAux 0x54 &&& 0x20 ≠ 0

def put (byte : UInt8) (u : MiniUart) : Bool × MiniUart :=
  if u.hasRoom then (true, u.setAux 0x40 byte.toUInt32) else (false, u)

/-- Nothing in the registers changes while a byte is refused. -/
def transmitter : Transmitter MiniUart where
  put byte l :=
    let (taken, u) := l.hardware.put byte
    some (taken, { l with hardware := u })
  hasRoom l := some (l.hardware.hasRoom, l)
  patience _ := 0

/-- The registers that are not zero, by offset. -/
def nonZero (block : Bank Nat UInt32) (size : Nat) : List (Nat × UInt32) :=
  ((List.range (size / 4)).map fun i => (4 * i, block.get i)).filter (·.2 ≠ 0)

end MiniUart

end CoopKernel
