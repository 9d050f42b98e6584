import CoopKernel.Machine.Basic

/-!
# Dispatch

Running tasks, serving soft interrupts, and the main loop, which serves all soft
interrupts, runs one task, and sleeps when there is none. How the actions of a
script are performed is a parameter. Loops that need not end have an allowance
of rounds.
-/

namespace CoopKernel.Machine

variable (perform : List Action → Exec Machine Unit)

/-- Run the next step of a script. -/
def runScript (script : Nat) : Exec Machine Unit := do
  let m ← get
  let run := m.runs.get script
  set { m with runs := m.runs.set script (run + 1) }
  perform (m.scripts script run)

def dispatch (t : TaskId) : Exec Machine Unit := do
  let k := (← get).kernel
  match (k.tasks.get t).worker with
  | none => Exec.fail .ranWithoutWorker
  | some worker =>
    note (.taskRan t worker k.cpu.enabled (k.isQueued t))
    match worker with
    | .poller bus => onBoard (Board.runPoller bus)
    | .script script => runScript perform script

/-- Serve pending soft interrupts, lowest first, and count them. -/
def serve : Nat → Nat → Exec Machine Nat
  | 0, _ => throw .hung
  | rounds + 1, served => do
    match ← onKernel (modifyGet Kernel.takeLowest) with
    | none => return served
    | some id =>
      modify (modifyKernel Kernel.enable)
      match (← get).kernel.soft.handlers.get id with
      | none => Exec.fail (.noHandler id)
      | some script =>
        note (.handlerRan id script (← get).kernel.cpu.enabled)
        runScript perform script
      modify (modifyKernel Kernel.disable)
      serve rounds (served + 1)

/-- Handlers run with interrupts enabled, so the caller has to have disabled them. -/
def pollSoft (rounds : Nat) : Exec Machine Nat := do
  let m ← get
  if m.kernel.cpu.enabled then Exec.fail .polledWithInterruptsEnabled
  else serve perform rounds 0

/-- One turn of the main loop. -/
def turn (rounds : Nat) (q : QueueId) : Exec Machine Turn := do
  modify (modifyKernel Kernel.disable)
  let _ ← pollSoft perform rounds
  match ← onKernel (modifyGet (Kernel.pop q)) with
  | some t =>
    modify (modifyKernel Kernel.enable)
    dispatch perform t
    return .ran
  | none =>
    modify (modifyKernel Kernel.sleep)
    return .idle

/-- Turns while tasks run, `limit` at most. The result counts them. -/
def turnWhileRan (rounds : Nat) (q : QueueId) : Nat → Nat → Exec Machine Nat
  | 0, ran => return ran
  | limit + 1, ran => do
    match ← turn perform rounds q with
    | .ran => turnWhileRan rounds q limit (ran + 1)
    | .idle => return ran

def turnForever (rounds : Nat) (q : QueueId) : Nat → Exec Machine Unit
  | 0 => throw .hung
  | left + 1 => do
    let _ ← turn perform rounds q
    turnForever rounds q left

/-- Pop and run tasks until the queue is empty or `limit` of them ran. -/
def drain (q : QueueId) : Nat → Nat → Exec Machine Nat
  | 0, ran => return ran
  | limit + 1, ran => do
    match ← onKernel (modifyGet (Kernel.pop q)) with
    | none => return ran
    | some t =>
      dispatch perform t
      drain q limit (ran + 1)

end CoopKernel.Machine
