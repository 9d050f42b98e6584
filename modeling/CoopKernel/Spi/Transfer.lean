import CoopKernel.Fault
import CoopKernel.Settings
import CoopKernel.Spi.Controller
import CoopKernel.Spi.Memory

/-!
# Transfers

A transfer shifts out one buffer or a list of them, shifts in as many bytes, or
does both at once. Its arguments are checked before anything is changed.

A bus master keeps the transfer in progress: which lanes are active, the cursors
into the current buffers, the buffers still to come and the bytes left.
-/

namespace CoopKernel.Spi

inductive Transfer where
  | write (data : Source)
  | read (into : Span)
  | exchange (data : Source) (into : Span)
  | writeList (data : List (List UInt8))
  | readList (into : List Span)
  | exchangeList (data : List (List UInt8)) (into : List Span)
deriving DecidableEq, Repr

namespace Transfer

/-- Why a transfer is refused. -/
def fault? : Transfer → Option Fault
  | write _ | read _ => none
  | exchange data into =>
    if data.length = into.length then none else some (.exchangeLengths data.length into.length)
  | writeList data => if data.isEmpty then some .emptyBufferList else none
  | readList into => if into.isEmpty then some .emptyBufferList else none
  | exchangeList data into =>
    if data.isEmpty || into.isEmpty then some .emptyBufferList
    else if data.length ≠ into.length then some (.exchangeListLengths data.length into.length)
    else if (data.zip into).all fun (d, i) => d.length = i.length then none
    else some .exchangePairLengths

end Transfer

structure Lanes where
  write : Bool := false
  read : Bool := false
  list : Bool := false
deriving DecidableEq, Repr

/-- What the poll task does when it runs next. -/
inductive Phase where
  | poll
  | reload
deriving DecidableEq, Repr

structure Master where
  controller : Controller := {}
  budget : PollBudget := .standard
  phase : Phase := .poll
  lanes : Lanes := {}
  status : Status := .ok
  remaining : Nat := 0
  read : Span := {}
  write : Source := .empty
  readList : List Span := []
  writeList : List (List UInt8) := []
  polls : UInt32 := 0
  yields : UInt32 := 0

namespace Master

/-- Point the write cursor past the first byte; an empty buffer sends a zero. -/
def aim (data : Source) (memory : Memory) (m : Master) : UInt8 × Master :=
  ((data.first? memory).getD 0, { m with write := data.rest })

/-- Take up an accepted transfer. The result is the first byte to send and the bytes to move. -/
def accept (memory : Memory) (m : Master) : Transfer → UInt8 × Nat × Master
  | .write data =>
    let (first, m) := { m with lanes := { write := true } }.aim data memory
    (first, data.length, m)
  | .read into => (0, into.length, { m with lanes := { read := true }, read := into })
  | .exchange data into =>
    let (first, m) :=
      { m with lanes := { write := true, read := true }, read := into }.aim data memory
    (first, data.length, m)
  | .writeList data =>
    let current := data.headD []
    let (first, m) :=
      { m with lanes := { write := true, list := true }, writeList := data.tail }.aim
        (.bytes current) memory
    (first, current.length, m)
  | .readList into =>
    let current := into.headD {}
    (0, current.length,
      { m with lanes := { read := true, list := true }, readList := into.tail, read := current })
  | .exchangeList data into =>
    let current := data.headD []
    let (first, m) :=
      { m with
        lanes := ⟨true, true, true⟩, writeList := data.tail, readList := into.tail
        read := into.headD {} }.aim (.bytes current) memory
    (first, current.length, m)

def begin (remaining : Nat) (m : Master) : Master :=
  { m with remaining, status := .inProgress, phase := .poll }

def finish (m : Master) : Master := { m with remaining := 0, status := .ok }

/-- Load the next buffers of a list; `none` as the first part when a list has run out. -/
def advance (memory : Memory) (m : Master) : Option (UInt8 × Nat) × Master :=
  let reading : Option (Nat × Master) :=
    if m.lanes.read then
      match m.readList with
      | [] => none
      | next :: rest => some (next.length, { m with readList := rest, read := next })
    else some (0, m)
  match reading with
  | none => (none, m)
  | some (length, m) =>
    if m.lanes.write then
      match m.writeList with
      | [] => (none, m)
      | next :: rest =>
        let (first, m) := { m with writeList := rest }.aim (.bytes next) memory
        (some (first, next.length), m)
    else (some (0, length), m)

end Master

end CoopKernel.Spi
