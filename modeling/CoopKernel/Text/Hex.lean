/-!
# Hexadecimal text

Lower-case digits, two for every byte.
-/

namespace CoopKernel.Hex

def digit (n : UInt8) : String := (Nat.digitChar n.toNat).toString

def byte (b : UInt8) : String := digit (b / 16) ++ digit (b % 16)

def bytes (l : List UInt8) : String := String.join (l.map byte)

end CoopKernel.Hex
