import CoopKernel.Board.Bus
import CoopKernel.Flash.Command
import CoopKernel.Text.Hex

/-!
# Conversations with a flash chip

Identifying a chip and waiting for it take several transfers. Each call makes one
step and starts one transfer; the holder of the bus, woken by its completion,
calls again until the conversation is done.
-/

namespace CoopKernel.Board

def chip (i : Nat) (b : Board) : Chip := b.chips.get i

def scratch (i offset : Nat) (b : Board) : UInt8 := b.memory.get ((b.chip i).scratch + offset)

def setStep (i : Nat) (step : Flash.Step) (b : Board) : Board :=
  b.modifyChip i ({ · with step := step })

def selectChip (i : Nat) (b : Board) : Board := b.select (b.chip i).device

def deselectChip (i : Nat) (b : Board) : Board := b.deselect (b.chip i).device

/-- Put bytes in the scratch cells and send them from there. -/
def sendScratch (i : Nat) (bytes : List UInt8) : Exec Board Unit := do
  let b ← get
  let span : Spi.Span := ⟨(b.chip i).scratch, bytes.length⟩
  set { b with memory := span.store b.memory bytes }
  start (b.chip i).device.bus (.write (.cells span))

def readScratch (i length : Nat) : Exec Board Unit := do
  let c := (← get).chip i
  start c.device.bus (.read ⟨c.scratch, length⟩)

def askStatus (i : Nat) : Exec Board Unit := sendScratch i [Flash.Opcode.status]

def askId (i : Nat) : Exec Board Unit := sendScratch i [Flash.Opcode.id]

/-- Send an addressed command, or refuse it with nothing changed. -/
def command (i : Nat) (c : Flash.Command) : Exec Board Unit :=
  match c.fault? with
  | some cause => Exec.fail cause
  | none => sendScratch i c.encode

/-- Two hexadecimal digits; a leading zero is a piece of its own. -/
def hexPieces (byte : UInt8) : List String :=
  if byte < 16 then ["0", Hex.digit byte] else [Hex.byte byte]

/-- Leave a conversation that another operation was in the middle of. -/
def breakOff (i : Nat) (operation : Flash.Operation) : Exec Board Unit := do
  let b ← get
  let step := (b.chip i).step
  if b.strict then Exec.fail (.conversationBroken operation step)
  else
    print .warning ["at45_device: ", operation.name, " abandons step ", step.name, "\n"]
    modify (deselectChip i)
    modify (setStep i .idle)

/-- Select the chip and ask for its status. -/
def openConversation (i : Nat) (step : Flash.Step) : Exec Board Unit := do
  modify (setStep i step)
  modify (selectChip i)
  askStatus i

def sizeMessage (size : UInt32) : List String :=
  if 1024 * 1024 ≤ size then
    ["  Flash size        : ", toString (size / (1024 * 1024)), " MiB\n"]
  else ["  Flash size        : ", toString (size / 1024), " KiB\n"]

/-- Take the id bytes over from the scratch cells. -/
def recordId (i : Nat) : Exec Board Unit := do
  let b ← get
  let manufacturer := b.scratch i 0
  let device := b.scratch i 1
  print .info <|
    ["at45_device: DataFlash information:\n  Manufacturer ID   : 0x"] ++ hexPieces manufacturer
      ++ ["\n  Device ID (part 1): 0x"] ++ hexPieces device
      ++ ["\n  Device ID (part 2): 0x"] ++ hexPieces (b.scratch i 2)
      ++ ["\n  Extended info     : 0x"] ++ hexPieces (b.scratch i 3) ++ ["\n"]
  if !Flash.recognises manufacturer device then
    modify (modifyChip i ({ · with valid := false }))
    print .warning ["at45_device: No valid dataflash detected!\n"]
  else
    let size := Flash.sizeOf device
    match Flash.pageSizeOf device with
    | .error cause => Exec.fail cause
    | .ok pageSize =>
      modify (modifyChip i ({ · with valid := true, size := size, pageSize := pageSize }))
      print .info (sizeMessage size)
      print .info ["  Page size         : ", toString pageSize, "\n"]

/-- One step of identifying the chip: read the status until it is ready, then the id. -/
def identifyChip (i : Nat) : Exec Board Flash.Progress := do
  match ((← get).chip i).step with
  | .idle => openConversation i .identifyFetchStatus; return .pending
  | .identifyFetchStatus =>
    modify (setStep i .identifyGotStatus)
    readScratch i 1
    return .pending
  | .identifyGotStatus =>
    let status := (← get).scratch i 0
    if status &&& Flash.readyBit = 0 then
      readScratch i 1
      return .pending
    else
      modify (deselectChip i)
      print .info (["at45_device: Status register: 0x"] ++ hexPieces status ++ ["\n"])
      modify (modifyChip i
        ({ · with protect := status &&& Flash.protectBit ≠ 0, step := .identifyFetchId }))
      modify (selectChip i)
      askId i
      return .pending
  | .identifyFetchId =>
    modify (setStep i .identifyGotId)
    readScratch i 4
    return .pending
  | .identifyGotId =>
    modify (deselectChip i)
    modify (setStep i .idle)
    recordId i
    return .done
  | .waitFetchStatus | .waitGotStatus =>
    breakOff i .identify
    openConversation i .identifyFetchStatus
    return .pending

/-- One step of waiting until the chip is ready. Every round selects it anew. -/
def awaitChip (i : Nat) : Exec Board Flash.Progress := do
  match ((← get).chip i).step with
  | .idle => openConversation i .waitFetchStatus; return .pending
  | .waitFetchStatus =>
    modify (setStep i .waitGotStatus)
    readScratch i 1
    return .pending
  | .waitGotStatus =>
    modify (deselectChip i)
    if (← get).scratch i 0 &&& Flash.readyBit = 0 then
      openConversation i .waitFetchStatus
      return .pending
    else
      modify (setStep i .idle)
      return .done
  | .identifyFetchStatus | .identifyGotStatus | .identifyFetchId | .identifyGotId =>
    breakOff i .await
    openConversation i .waitFetchStatus
    return .pending

end CoopKernel.Board
