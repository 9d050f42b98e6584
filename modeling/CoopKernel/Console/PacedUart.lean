import CoopKernel.Console.Transmitter

/-!
# A UART that makes its user wait

For each byte to come the UART has a count of looks at which it is still busy
and a count of offers that it refuses although it has room. It records what
happened to it, with the interrupt flag of the moment.
-/

namespace CoopKernel

inductive UartEvent where
  | busy (byte : UInt8) (enabled : Bool)
  | rejected (byte : UInt8) (enabled : Bool)
  | put (byte : UInt8) (enabled : Bool)
  | looked (busy : Nat) (enabled : Bool)
deriving DecidableEq, Repr

/-- The first entry of each list is for the byte to come; a missing entry is zero. -/
structure PacedUart where
  busy : List Nat := []
  rejects : List Nat := []
  /-- Prints a message of its own for every byte that it takes. -/
  reenters : Bool := false
  sent : Array UInt8 := #[]
  /-- Newest first. -/
  trace : List UartEvent := []

namespace PacedUart

def current (counts : List Nat) : Nat := counts.headD 0

def countDown : List Nat → List Nat
  | [] => []
  | n :: rest => (n - 1) :: rest

def patience (u : PacedUart) : Nat := current u.busy + current u.rejects

def note (e : UartEvent) (u : PacedUart) : PacedUart := { u with trace := e :: u.trace }

/-- The UART after refusing the byte, if it does refuse. -/
def refuse? (byte : UInt8) (enabled : Bool) (u : PacedUart) : Option PacedUart :=
  if 0 < current u.busy then some (u.note (.busy byte enabled))
  else if 0 < current u.rejects then
    some ({ u with rejects := countDown u.rejects }.note (.rejected byte enabled))
  else none

def accept (byte : UInt8) (u : PacedUart) : PacedUart :=
  { u with busy := u.busy.tail, rejects := u.rejects.tail, sent := u.sent.push byte }

def look (enabled : Bool) (u : PacedUart) : Bool × PacedUart :=
  let noted := u.note (.looked (current u.busy) enabled)
  if 0 < current u.busy then (false, { noted with busy := countDown u.busy }) else (true, noted)

/-- A UART on its own has nobody to print to. -/
def transmitter : Transmitter PacedUart where
  put byte l :=
    match l.hardware.refuse? byte l.cpu.enabled with
    | some u => some (false, { l with hardware := u })
    | none => some (true, l.modify fun u => (u.note (.put byte l.cpu.enabled)).accept byte)
  hasRoom l :=
    let (room, u) := l.hardware.look l.cpu.enabled
    some (room, { l with hardware := u })
  patience := patience

end PacedUart

end CoopKernel
