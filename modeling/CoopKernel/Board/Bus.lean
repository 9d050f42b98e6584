import CoopKernel.Board.Basic

/-!
# Running transfers

A started transfer puts the poll task of its bus in the main queue. The poll
task comes back there until the transfer is complete, and then the holder of the
bus is put in the main queue instead.
-/

namespace CoopKernel.Board

def feedQueue (bus : Nat) (b : Board) : QueueId := b.kernel.feeds (.bus bus)

def schedulePoll (bus : Nat) : Exec Board Unit := do
  let b ← get
  let _ ← onKernel (Kernel.add (b.feedQueue bus) (.poll bus))

def wakeHolder (bus : Nat) : Exec Board Unit := do
  let b ← get
  let _ ← onKernel (Kernel.addOptional (b.feedQueue bus) (b.kernel.holder (.bus bus)))

def send (bus : Nat) (byte : UInt8) (b : Board) : Board :=
  (b.modifyController bus (Spi.Controller.write byte)).note (.wire bus (.tx byte))

/-- Bind the poll task and send the first byte of a buffer. -/
def prime (bus : Nat) (first : UInt8) (remaining : Nat) (b : Board) : Board :=
  let bound := { b with kernel := b.kernel.putWorker (.poll bus) (.poller bus) }
  (bound.modifyMaster bus (Spi.Master.begin remaining)).send bus first

/-- Send the first byte and leave the rest to the poll task. -/
def launch (bus : Nat) (first : UInt8) (remaining : Nat) : Exec Board Unit := do
  modify (prime bus first remaining)
  schedulePoll bus

/-- Start a transfer, or refuse it with nothing changed. -/
def start (bus : Nat) (t : Spi.Transfer) : Exec Board Unit := fun b =>
  match t.fault? with
  | some cause => .error (.fault cause) b
  | none =>
    let (first, remaining, master) := (b.masters.get bus).accept b.memory t
    launch bus first remaining { b with masters := b.masters.set bus master }

def finishTransfer (bus : Nat) : Exec Board Unit := do
  modify (modifyMaster bus Spi.Master.finish)
  wakeHolder bus

def poll (bus : Nat) : Exec Board Unit := do
  let b ← get
  let polled := (b.masters.get bus).poll b.memory
  set
    { b with
      masters := b.masters.set bus polled.master
      memory := polled.memory
      kernel := { b.kernel with trace := polled.wires.map (Event.wire bus) ++ b.kernel.trace } }
  match polled.ending with
  | .yielded | .bufferDone => schedulePoll bus
  | .transferDone => wakeHolder bus

def reload (bus : Nat) : Exec Board Unit := do
  let b ← get
  let (loaded, master) := (b.masters.get bus).advance b.memory
  set { b with masters := b.masters.set bus master }
  match loaded with
  | some (first, remaining) => launch bus first remaining
  | none => finishTransfer bus

/-- A run of the poll task. -/
def runPoller (bus : Nat) : Exec Board Unit := do
  match ((← get).masters.get bus).phase with
  | .poll => poll bus
  | .reload => reload bus

def request (bus : Nat) (t : TaskId) : Exec Board Bool := onKernel (Kernel.submit (.bus bus) t)

def release (bus : Nat) : Exec Board Unit := onKernel (Kernel.handOver (.bus bus))

/-- Load a device's settings, then assert its chip select. -/
def select (d : Device) (b : Board) : Board :=
  ((b.modifyController d.bus (Spi.Controller.load d.regs)).note (.loaded d.bus d.regs)).note
    (.selected d.line)

def deselect (d : Device) (b : Board) : Board :=
  (b.note (.deselected d.line)).note (.unloaded d.bus d.regs)

def describe (bus : Nat) (mode : Spi.Mode) (baud : UInt32) (line : Nat) (b : Board) : Device where
  bus := bus
  mode := mode
  baud := baud
  regs := (b.masters.get bus).controller.settings mode baud
  line := line

def pollReport (bus : Nat) (b : Board) : PollReport :=
  let m := b.masters.get bus
  ⟨m.budget.loops, m.polls, m.yields, m.status.isDone⟩

end CoopKernel.Board
