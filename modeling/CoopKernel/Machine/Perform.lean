import CoopKernel.Machine.Dispatch

/-!
# Performing actions

An action that runs a task, a handler or the end of a conversation performs the
actions of a script in turn. Scripts may nest, so performing has an allowance of
depth, and an allowance of rounds for the loops of the machine.
-/

namespace CoopKernel.Machine

def withoutReply (x : Exec Machine Unit) : Exec Machine Reply := do
  x
  return .nothing

def changeKernel (f : Kernel → Kernel) : Exec Machine Reply :=
  withoutReply (modify (modifyKernel f))

def changeBoard (f : Board → Board) : Exec Machine Reply :=
  withoutReply (modify (modifyBoard f))

def changeController (bus : Nat) (f : Spi.Controller → Spi.Controller) : Exec Machine Reply :=
  changeBoard (Board.modifyController bus f)

def queueText (length : Nat) : String := "WorkQueue \x7b len: " ++ toString length ++ " \x7d"

def taskText (t : Task) : String :=
  "Task \x7b has_worker: " ++ toString t.worker.isSome ++ ", queued: " ++ toString t.queued
    ++ " \x7d"

/-- A step of a conversation; its last one performs the actions that wait for it. -/
def converse (nested : List Action → Exec Machine Unit) (done : List Action)
    (step : Exec Board Flash.Progress) : Exec Machine Reply := do
  let progress ← onBoard step
  if progress = .done then nested done
  return .progress progress

/-- Perform one action. `nested` performs the actions of scripts. -/
def perform (rounds : Nat) (nested : List Action → Exec Machine Unit) : Action → Exec Machine Reply
  | .add q t => return .flag (← onKernel (Kernel.addOptional (.main q) (t.map .user)))
  | .pop q => do
    let t ← onKernel (modifyGet (Kernel.pop (.main q)))
    modify ({ · with hand := t })
    return (t.map Reply.task).getD .nothing
  | .runHand => do
    match (← get).hand with
    | none => return .text "none"
    | some t => withoutReply (dispatch nested t)
  | .run t => withoutReply (dispatch nested (.user t))
  | .drain q limit => return .count (← drain nested (.main q) limit 0)
  | .isEmpty q => return .flag (← onKernel (modifyGet (Kernel.isEmpty (.main q))))
  | .queueLiteral q => return .text (queueText (← onKernel (modifyGet (Kernel.count (.main q)))))
  | .isBound t => return .flag ((← get).kernel.isBound (.user t))
  | .taskLiteral t => return .text (taskText ((← get).kernel.tasks.get (.user t)))
  | .bindWorker t script => changeKernel (Kernel.putWorker (.user t) (.script script))
  | .submit n t => return .flag (← onKernel (Kernel.submit (.shared n) (.user t)))
  | .handOver n => withoutReply (onKernel (Kernel.handOver (.shared n)))
  | .countFed n => do
    let q := (← get).kernel.feeds (.shared n)
    return .count (← onKernel (modifyGet (Kernel.count q)))
  | .bindHandler id script => withoutReply (onKernel (Kernel.bindHandler id (some script)))
  | .tryBindHandler id script => do
    match ← onKernel (Kernel.tryBindHandler id script) with
    | .ok () => return .text "ok"
    | .error cause => return .refused cause
  | .clearHandler id => withoutReply (onKernel (Kernel.bindHandler id none))
  | .raise id => withoutReply (onKernel (Kernel.raise id))
  | .isPending id => return .flag ((← get).kernel.soft.isPending id)
  | .poll => return .count (← pollSoft nested rounds)
  | .turn q => return .turn (← turn nested rounds (.main q))
  | .turnWhileRan q limit => return .count (← turnWhileRan nested rounds (.main q) limit 0)
  | .turnForever q => withoutReply (turnForever nested rounds (.main q) rounds)
  | .enable => changeKernel Kernel.enable
  | .disable => changeKernel Kernel.disable
  | .sleep => changeKernel Kernel.sleep
  | .reset => changeKernel ({ · with cpu := {} })
  | .save => do
    let enabled := (← get).kernel.cpu.enabled
    modify fun m => { m.modifyKernel Kernel.disable with saved := m.saved ++ [enabled] }
    return .flag enabled
  | .restore i =>
    withoutReply (modify fun m => m.modifyKernel (Kernel.restore (m.saved.getD i false)))
  | .guard => do
    let enabled := (← get).kernel.cpu.enabled
    modify fun m => { m.modifyKernel Kernel.disable with guards := m.guards ++ [some enabled] }
    return .flag enabled
  | .dropGuard i => do
    match (← get).guards.getD i none with
    | none => return .flag false
    | some enabled =>
      modify fun m => { m.modifyKernel (Kernel.restore enabled) with guards := m.guards.set i none }
      return .flag true
  | .transfer bus t => withoutReply (onBoard (Board.start bus t))
  | .request bus t => return .flag (← onBoard (Board.request bus (.user t)))
  | .release bus => withoutReply (onBoard (Board.release bus))
  | .select d => changeBoard fun b => b.select (b.devices.get d)
  | .deselect d => changeBoard fun b => b.deselect (b.devices.get d)
  | .describe d => return .device ((← get).board.devices.get d)
  | .resetStats bus => changeBoard (Board.modifyMaster bus ({ · with polls := 0, yields := 0 }))
  | .pollReport bus => return .polling ((← get).board.pollReport bus)
  | .respond bus data => changeController bus (Spi.Controller.respond data)
  | .reschedule bus ready => changeController bus (Spi.Controller.reschedule ready)
  | .setBuffer into data => changeBoard fun b => { b with memory := into.store b.memory data }
  | .initController bus =>
    changeController bus (Spi.Controller.modifyFile Spi.Registers.init)
  | .shutDownController bus =>
    changeController bus (Spi.Controller.modifyFile Spi.Registers.shutDown)
  | .controllerEnabled bus => do
    let file? := ((← get).board.masters.get bus).controller.file?
    return .flag (file?.any Spi.Registers.isEnabled)
  | .poke bus offset value =>
    changeController bus (Spi.Controller.modifyFile (Spi.Registers.poke offset value))
  | .requestChip i t => do
    return .flag (← onBoard (Board.request ((← get).board.chip i).device.bus (.user t)))
  | .releaseChip i => do
    withoutReply (onBoard (Board.release ((← get).board.chip i).device.bus))
  | .selectChip i => changeBoard (Board.selectChip i)
  | .deselectChip i => changeBoard (Board.deselectChip i)
  | .identifyChip i done => converse nested done (Board.identifyChip i)
  | .awaitChip i done => converse nested done (Board.awaitChip i)
  | .readChip i into => do
    withoutReply (onBoard (Board.start ((← get).board.chip i).device.bus (.readList into)))
  | .writeChip i data => do
    withoutReply (onBoard (Board.start ((← get).board.chip i).device.bus (.writeList data)))
  | .askStatus i => withoutReply (onBoard (Board.askStatus i))
  | .askId i => withoutReply (onBoard (Board.askId i))
  | .command i c => withoutReply (onBoard (Board.command i c))
  | .print level text => withoutReply (onBoard (Board.print level [text]))
  | .remark text => return .text text
  | .halt text => Exec.fail (.halted text)

/-- Perform a nested action and record its reply, if it has one. -/
def performNested (rounds : Nat) (nested : List Action → Exec Machine Unit) (a : Action) :
    Exec Machine Unit := do
  let reply ← perform rounds nested a
  if reply ≠ .nothing then note (.replied a.name reply)

/-- Perform the actions of a script; `depth` bounds how far scripts nest. -/
def performAll (rounds : Nat) : Nat → List Action → Exec Machine Unit
  | _, [] => return ()
  | 0, _ :: _ => throw .hung
  | depth + 1, actions => actions.forM (performNested rounds (performAll rounds depth))

/-- Rounds that a loop may take, and depth that scripts may nest to, before a run counts as hung. -/
def roundLimit : Nat := 1000000
def depthLimit : Nat := 10000

/-- What an action did: its reply or why it stopped, and the events, oldest first. -/
structure Entry where
  outcome : Except Stop Reply
  events : List Event
  before : Machine
  after : Machine

/-- Perform one action of the application itself. -/
def enter (m : Machine) (a : Action) : Entry :=
  let fresh := m.modifyKernel ({ · with trace := [] })
  match perform roundLimit (performAll roundLimit depthLimit) a fresh with
  | .ok reply after => ⟨.ok reply, after.kernel.trace.reverse, m, after⟩
  | .error stop after => ⟨.error stop, after.kernel.trace.reverse, m, after⟩

/-- Read the lengths of queues, each in a critical section of its own. -/
def survey (queues : List QueueId) : Exec Machine (List Nat) :=
  queues.mapM fun q => onKernel (modifyGet (Kernel.count q))

/-- Perform actions in turn until one of them stops the machine, with a survey of the watched
queues after each. -/
def session (watched : List QueueId) (m : Machine) : List Action → List Entry
  | [] => []
  | a :: rest =>
    let entry := m.enter a
    match entry.outcome, survey watched entry.after with
    | .ok _, .ok _ next => entry :: next.session watched rest
    | _, _ => [entry]

end CoopKernel.Machine
