/-!
# Serial modes

Clock phase and polarity of a device on the serial bus, as the two mode bits of
a controller.
-/

namespace CoopKernel.Spi

inductive Mode where
  | mode0
  | mode1
  | mode2
  | mode3
deriving DecidableEq, Repr, Inhabited

namespace Mode

/-- Bit 0 is the phase, bit 1 the polarity. -/
def bits : Mode → UInt8
  | mode0 => 0
  | mode1 => 1
  | mode2 => 2
  | mode3 => 3

def name : Mode → String
  | mode0 => "Mode0"
  | mode1 => "Mode1"
  | mode2 => "Mode2"
  | mode3 => "Mode3"

def isDefault (m : Mode) : Bool := m = default

end Mode

end CoopKernel.Spi
