import CoopKernel.Console.Terminal
import CoopKernel.Flash.Geometry
import CoopKernel.Kernel.Nest
import CoopKernel.Kernel.SoftInterrupt
import CoopKernel.Spi.Poll

/-!
# The board

The kernel and everything attached to it: memory, bus masters and their devices,
flash chips, and the terminal.
-/

namespace CoopKernel

/-- A flash chip on a bus, with five scratch cells for commands and responses. -/
structure Chip where
  device : Device := { bus := 0 }
  scratch : Nat := 0
  step : Flash.Step := .idle
  size : UInt32 := 0
  pageSize : UInt32 := 0
  valid : Bool := false
  protect : Bool := false
deriving DecidableEq, Repr

def Chip.isIdle (c : Chip) : Bool := c.step = .idle

structure Board where
  kernel : Kernel := {}
  memory : Spi.Memory := ⟨0, #[]⟩
  masters : Bank Nat Spi.Master := ⟨{}, #[]⟩
  devices : Bank Nat Device := ⟨{ bus := 0 }, #[]⟩
  chips : Bank Nat Chip := ⟨{}, #[]⟩
  terminal : Terminal := {}
  /-- Stop when a conversation with a chip is abandoned. -/
  strict : Bool := true

namespace Board

def onKernel {α : Type} (x : Exec Kernel α) : Exec Board α :=
  x.on Board.kernel fun k b => { b with kernel := k }

def note (e : Event) (b : Board) : Board := { b with kernel := b.kernel.note e }

def modifyMaster (bus : Nat) (f : Spi.Master → Spi.Master) (b : Board) : Board :=
  { b with masters := b.masters.modify bus f }

def modifyController (bus : Nat) (f : Spi.Controller → Spi.Controller) (b : Board) : Board :=
  b.modifyMaster bus fun m => { m with controller := f m.controller }

def modifyChip (i : Nat) (f : Chip → Chip) (b : Board) : Board :=
  { b with chips := b.chips.modify i f }

/-- Print through the terminal. A message is a list of pieces, each written on its own. -/
def print (level : Level) (message : List String) : Exec Board Unit := fun b =>
  match Terminal.message level (message.map fun s => s.toUTF8.toList)
      ⟨b.kernel.cpu, b.terminal⟩ with
  | some line =>
    .ok () { b with kernel := { b.kernel with cpu := line.cpu }, terminal := line.hardware }
  | none => .error .hung b

end Board

end CoopKernel
