import CoopKernel.Machine.Basic

/-!
# Booting a machine

A plan lists the parts of a board and the scripts of its application. Buffers
are laid out in memory one after the other, then the scratch cells of the chips.
-/

namespace CoopKernel

structure BusPlan where
  queue : Nat := 0
  budget : PollBudget := .standard
  hardware : Spi.Hardware := .scripted (fun _ => true) []

structure DevicePlan where
  bus : Nat
  mode : Spi.Mode
  baud : UInt32

structure Plan where
  queues : Nat := 1
  /-- The main queue that each nest feeds. -/
  nests : List Nat := []
  slots : Nat := 0
  slots_le : slots ≤ 32 := by decide
  scripts : Array Script := #[]
  /-- The script of each task that has a worker. -/
  tasks : List (Option Nat) := []
  buses : List BusPlan := []
  devices : List DevicePlan := []
  chips : List DevicePlan := []
  buffers : List (List UInt8) := []
  console : Option Stream := none
  strict : Bool := true

namespace Plan

def bufferStart (p : Plan) (i : Nat) : Nat := (p.buffers.take i).flatten.length

def buffer (p : Plan) (i : Nat) : Spi.Span := ⟨p.bufferStart i, (p.buffers.getD i []).length⟩

def scratchStart (p : Plan) (i : Nat) : Nat := p.bufferStart p.buffers.length + 5 * i

/-- Chip selects of plain devices count from 0, those of chips from 100. -/
def chipLine (i : Nat) : Nat := 100 + i

def bootKernel (p : Plan) : Kernel where
  tasks := ⟨{}, #[]⟩ |> p.tasks.zipIdx.foldl fun tasks (script, i) =>
    tasks.set (.user i) { worker := script.map .script }
  nests :=
    let shared := p.nests.zipIdx.foldl (fun nests (q, i) =>
      nests.set (NestId.shared i) { feeds := .main q }) ⟨⟨.main 0, none⟩, #[]⟩
    p.buses.zipIdx.foldl (fun nests (bus, i) =>
      nests.set (NestId.bus i) { feeds := .main bus.queue }) shared
  soft := { slots := p.slots, slots_le := p.slots_le }

def bootTerminal (p : Plan) : Terminal :=
  match p.console with
  | none => {}
  | some stream => { consoles := Bank.ofList {} [{ stream }], installed := some 0 }

def bootBoard (p : Plan) : Board :=
  let attached : Board :=
    { kernel := p.bootKernel
      memory := Bank.ofList 0 (p.buffers.flatten ++ List.replicate (5 * p.chips.length) 0)
      masters := Bank.ofList {} (p.buses.map fun bus =>
        { controller := { hardware := bus.hardware }, budget := bus.budget })
      terminal := p.bootTerminal
      strict := p.strict }
  { attached with
    devices := Bank.ofList { bus := 0 } (p.devices.zipIdx.map fun (d, i) =>
      attached.describe d.bus d.mode d.baud i)
    chips := Bank.ofList {} (p.chips.zipIdx.map fun (c, i) =>
      { device := attached.describe c.bus c.mode c.baud (chipLine i)
        scratch := p.scratchStart i }) }

/-- Every queue of the machine. -/
def watched (p : Plan) : List QueueId :=
  (List.range p.queues).map .main ++ (List.range p.nests.length).map (.waiting <| .shared ·)
    ++ (List.range p.buses.length).map (.waiting <| .bus ·)

def boot (p : Plan) : Machine where
  board := p.bootBoard
  scripts := fun w => p.scripts.getD w fun _ => []

end Plan

end CoopKernel
