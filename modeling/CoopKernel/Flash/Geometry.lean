import CoopKernel.Fault

/-!
# Identification and geometry of the flash family

The manufacturer byte and the first device byte say whether a chip belongs to
the family; the density code in the latter fixes its size and page size.
-/

namespace CoopKernel.Flash

def manufacturerId : UInt8 := 0x1f

def familyCode : UInt8 := 0x20

/-- Status bit: the chip takes the next command. -/
def readyBit : UInt8 := 0x80

/-- Status bit: sector protection is on. -/
def protectBit : UInt8 := 0x02

/-- Page addresses are 13 bits wide. -/
def pageMask : UInt16 := 0x1fff

/-- Positions within a page are 11 bits wide. -/
def positionMask : UInt16 := 0x07ff

def density (device : UInt8) : UInt8 := device &&& 0x1f

def recognises (manufacturer device : UInt8) : Bool :=
  manufacturer = manufacturerId && device &&& 0xe0 = familyCode
    && 2 ≤ density device && density device ≤ 8

/-- Every density step doubles the size, within 32 bits. -/
def sizeOf (device : UInt8) : UInt32 := 0x8000 <<< (density device).toUInt32

/-- The page size as a power of two over 256, for each density. -/
def pageExponents : List UInt32 := [0, 0, 0, 0, 0, 0, 1, 1, 2]

/-- A density beyond the table is a caller's mistake. -/
def pageSizeOf (device : UInt8) : Except Fault UInt32 :=
  match pageExponents[(density device).toNat]? with
  | some e => .ok (256 <<< e)
  | none => .error (.densityOutOfRange (density device).toNat)

end CoopKernel.Flash
