import CoopKernel.Flash.Geometry

/-!
# Flash commands

An addressed command is an opcode and a 24-bit address: 13 bits of page, then 11
bits of position. Arguments that do not fit their field are refused.
-/

namespace CoopKernel.Flash

namespace Opcode

def arrayRead : UInt8 := 0x0b
def pageToBuffer : UInt8 := 0x53
def program : UInt8 := 0x83
def bufferWrite : UInt8 := 0x84
def id : UInt8 := 0x9f
def status : UInt8 := 0xd7

end Opcode

inductive Command where
  | arrayRead (page position : UInt16)
  | bufferWrite (position : UInt16)
  | pageToBuffer (page : UInt16)
  | program (page : UInt16)
deriving DecidableEq, Repr

namespace Command

def pageFault? (page : UInt16) : Option Fault :=
  if page &&& ~~~ pageMask = 0 then none else some (.pageOutOfRange page)

def positionFault? (position : UInt16) : Option Fault :=
  if position &&& ~~~ positionMask = 0 then none else some (.positionOutOfRange position)

/-- The page is looked at before the position. -/
def fault? : Command → Option Fault
  | arrayRead page position => (pageFault? page).or (positionFault? position)
  | bufferWrite position => positionFault? position
  | pageToBuffer page | program page => pageFault? page

/-- The bytes on the wire; the array read has a dummy byte at its end. -/
def encode : Command → List UInt8
  | arrayRead page position =>
    [Opcode.arrayRead, (page >>> 5).toUInt8, ((page <<< 3) ||| (position >>> 8)).toUInt8,
      position.toUInt8, 0]
  | bufferWrite position => [Opcode.bufferWrite, 0, (position >>> 8).toUInt8, position.toUInt8]
  | pageToBuffer page => [Opcode.pageToBuffer, (page >>> 5).toUInt8, (page <<< 3).toUInt8, 0]
  | program page => [Opcode.program, (page >>> 5).toUInt8, (page <<< 3).toUInt8, 0]

end Command

end CoopKernel.Flash
