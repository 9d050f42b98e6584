import CoopKernel.Event
import CoopKernel.Spi.Transfer

/-!
# One run of a poll task

A run moves bytes as long as its budget of looks at the ready flag lasts. Every
look costs one, whether it finds the flag set or not. A run that spends the
budget keeps its cursors for the next run; a run that gets the last byte ends
the buffer.
-/

namespace CoopKernel.Spi

/-- A run under way. Its traffic is kept newest first. -/
structure Pass where
  controller : Controller
  memory : Memory
  remaining : Nat
  read : Span
  write : Source
  left : Nat
  wires : List Wire := []

namespace Pass

/-- Wait for the flag and read the byte that came in. -/
def receive (p : Pass) : Option UInt8 × Pass :=
  let w := p.controller.await 0 p.left
  let p := { p with left := w.left, wires := .checked w.misses w.hit :: p.wires }
  if w.hit then
    let (byte, controller) := w.controller.read
    (some byte, { p with controller, wires := .rx byte :: p.wires })
  else (none, { p with controller := w.controller })

def transmit (byte : UInt8) (p : Pass) : Pass :=
  { p with controller := p.controller.write byte, wires := .tx byte :: p.wires }

/-- Put a received byte in the next cell, if the transfer reads and a cell is left. -/
def keep (lanes : Lanes) (byte : UInt8) (p : Pass) : Pass :=
  match lanes.read, p.read.first? with
  | true, some address => { p with memory := p.memory.set address byte, read := p.read.rest }
  | _, _ => p

/-- The byte to follow the one in flight. -/
def upcoming (lanes : Lanes) (p : Pass) : UInt8 :=
  if lanes.write then (p.write.first? p.memory).getD 0 else 0

/-- Count a byte that is through, and move the write cursor on. -/
def step (lanes : Lanes) (p : Pass) : Pass :=
  { p with
    remaining := p.remaining - 1
    write := if lanes.write then p.write.rest else p.write }

/-- Receive the byte in flight and send the one after it, `n` times. -/
def shift (lanes : Lanes) : Nat → Pass → Bool × Pass
  | 0, p => (true, p)
  | n + 1, p =>
    let byte := p.upcoming lanes
    match p.receive with
    | (none, p) => (false, p)
    | (some received, p) =>
      shift lanes n (((p.transmit byte).keep lanes received).step lanes)

/-- Move all bytes of the buffer; `false` when the budget ran out first. -/
def run (lanes : Lanes) (p : Pass) : Bool × Pass :=
  match p.shift lanes (p.remaining - 1) with
  | (false, p) => (false, p)
  | (true, p) =>
    match p.receive with
    | (none, p) => (false, p)
    | (some received, p) => (true, p.keep lanes received)

end Pass

/-- How a run of the poll task ended. -/
inductive Ending where
  | yielded
  | bufferDone
  | transferDone
deriving DecidableEq, Repr

structure Polled where
  master : Master
  memory : Memory
  /-- Newest first. -/
  wires : List Wire
  ending : Ending

def Master.pass (memory : Memory) (m : Master) : Pass where
  controller := m.controller
  memory := memory
  remaining := m.remaining
  read := m.read
  write := m.write
  left := m.budget.loops.toNat

def Master.poll (memory : Memory) (m : Master) : Polled :=
  let (complete, p) := (m.pass memory).run m.lanes
  let m := { m with polls := m.polls + 1, controller := p.controller }
  if !complete then
    ⟨{ m with yields := m.yields + 1, remaining := p.remaining, read := p.read, write := p.write },
      p.memory, p.wires, .yielded⟩
  else if m.lanes.list then ⟨{ m with phase := .reload }, p.memory, p.wires, .bufferDone⟩
  else ⟨m.finish, p.memory, p.wires, .transferDone⟩

end CoopKernel.Spi
