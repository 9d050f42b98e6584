import CoopKernel.Spi.Mode

/-!
# Clock selection

The controller divides the CPU clock by 2, 4, 8, 16, 32, 64 or 128. The control
register names the divider by a prescaler of 4, 16, 64 or 128 and a bit that
halves the first three.
-/

namespace CoopKernel.Spi.Clock

def enableBit : UInt8 := 0x40
def masterBit : UInt8 := 0x10
def doubleBit : UInt8 := 0x80

/-- The slowest step, a divider of 128. -/
def lastStep : Nat := 6

/-- The first step from `step` whose clock does not exceed the request; `hz` is the clock there. -/
def stepFrom (baud : UInt32) : Nat → Nat → UInt32 → Nat
  | 0, step, _ => step
  | left + 1, step, hz => if hz ≤ baud then step else stepFrom baud left (step + 1) (hz >>> 1)

def step (cpuHz baud : UInt32) : Nat := stepFrom baud lastStep 0 (cpuHz >>> 1)

/-- The doubling bit does not apply to the prescaler of 128. -/
def prescalerBits (step : Nat) : UInt8 :=
  if step = lastStep then 0x03
  else if step % 2 = 0 then doubleBit ||| UInt8.ofNat (step / 2)
  else UInt8.ofNat (step / 2)

/-- The control value for the fastest clock that is not above `baud`, or for the slowest one. -/
def control (cpuHz : UInt32) (mode : Mode) (baud : UInt32) : UInt8 :=
  enableBit ||| masterBit ||| (mode.bits <<< 2) ||| prescalerBits (step cpuHz baud)

end CoopKernel.Spi.Clock
