import CoopKernel.Event
import CoopKernel.Flash.Command
import CoopKernel.Spi.Transfer

/-!
# Actions

What a script may ask of the machine. A conversation step carries the actions to
run when the conversation is done.
-/

namespace CoopKernel

inductive Action where
  | add (queue : Nat) (task : Option Nat)
  | pop (queue : Nat)
  | runHand
  | run (task : Nat)
  | drain (queue limit : Nat)
  | isEmpty (queue : Nat)
  | queueLiteral (queue : Nat)
  | isBound (task : Nat)
  | taskLiteral (task : Nat)
  | bindWorker (task script : Nat)
  | submit (nest task : Nat)
  | handOver (nest : Nat)
  | countFed (nest : Nat)
  | bindHandler (id script : Nat)
  | tryBindHandler (id script : Nat)
  | clearHandler (id : Nat)
  | raise (id : Nat)
  | isPending (id : Nat)
  | poll
  | turn (queue : Nat)
  | turnWhileRan (queue limit : Nat)
  | turnForever (queue : Nat)
  | enable
  | disable
  | sleep
  | reset
  | save
  | restore (index : Nat)
  | guard
  | dropGuard (index : Nat)
  | transfer (bus : Nat) (t : Spi.Transfer)
  | request (bus task : Nat)
  | release (bus : Nat)
  | select (device : Nat)
  | deselect (device : Nat)
  | describe (device : Nat)
  | resetStats (bus : Nat)
  | pollReport (bus : Nat)
  | respond (bus : Nat) (data : List UInt8)
  | reschedule (bus : Nat) (ready : Nat → Bool)
  | setBuffer (into : Spi.Span) (data : List UInt8)
  | initController (bus : Nat)
  | shutDownController (bus : Nat)
  | controllerEnabled (bus : Nat)
  | poke (bus offset : Nat) (value : UInt8)
  | requestChip (chip task : Nat)
  | releaseChip (chip : Nat)
  | selectChip (chip : Nat)
  | deselectChip (chip : Nat)
  | identifyChip (chip : Nat) (done : List Action)
  | awaitChip (chip : Nat) (done : List Action)
  | readChip (chip : Nat) (into : List Spi.Span)
  | writeChip (chip : Nat) (data : List (List UInt8))
  | askStatus (chip : Nat)
  | askId (chip : Nat)
  | command (chip : Nat) (c : Flash.Command)
  | print (level : Level) (text : String)
  | remark (text : String)
  | halt (text : String)
deriving Inhabited

namespace Action

def transferName : Spi.Transfer → String
  | .write (.bytes _) => "write"
  | .write (.cells _) => "write_cells"
  | .read _ => "read"
  | .exchange (.bytes _) _ => "exchange"
  | .exchange (.cells _) _ => "exchange_cells"
  | .writeList _ => "write_list"
  | .readList _ => "read_list"
  | .exchangeList _ _ => "exchange_list"

def commandName : Flash.Command → String
  | .arrayRead _ _ => "f_cont_read"
  | .bufferWrite _ => "f_buf_write"
  | .pageToBuffer _ => "f_to_buf"
  | .program _ => "f_program"

/-- The name of an action in transcripts. -/
def name : Action → String
  | add _ _ => "add"
  | pop _ => "pop"
  | runHand => "run_hand"
  | run _ => "run"
  | drain _ _ => "drain"
  | isEmpty _ => "empty"
  | queueLiteral _ => "qdebug"
  | isBound _ => "has_worker"
  | taskLiteral _ => "tdebug"
  | bindWorker _ _ => "set_worker"
  | submit _ _ => "nadd"
  | handOver _ => "next"
  | countFed _ => "nmain"
  | bindHandler _ _ => "set_handler"
  | tryBindHandler _ _ => "try_set_handler"
  | clearHandler _ => "clear_handler"
  | raise _ => "raise"
  | isPending _ => "is_pending"
  | poll => "poll"
  | turn _ => "run_once"
  | turnWhileRan _ _ => "until_idle"
  | turnForever _ => "run_forever"
  | enable => "irq_on"
  | disable => "irq_off"
  | sleep => "irq_wait"
  | reset => "irq_reset"
  | save => "save"
  | restore _ => "restore"
  | guard => "guard"
  | dropGuard _ => "drop"
  | transfer _ t => transferName t
  | request _ _ => "request"
  | release _ => "release"
  | select _ => "select"
  | deselect _ => "deselect"
  | describe _ => "device"
  | resetStats _ => "stats_reset"
  | pollReport _ => "spi_info"
  | respond _ _ => "respond"
  | reschedule _ _ => "ready"
  | setBuffer _ _ => "set_buf"
  | initController _ => "x_init"
  | shutDownController _ => "x_disable"
  | controllerEnabled _ => "x_enabled"
  | poke _ _ _ => "set_reg"
  | requestChip _ _ => "f_request"
  | releaseChip _ => "f_release"
  | selectChip _ => "f_select"
  | deselectChip _ => "f_deselect"
  | identifyChip _ _ => "identify"
  | awaitChip _ _ => "wait_ready"
  | readChip _ _ => "f_read_list"
  | writeChip _ _ => "f_write_list"
  | askStatus _ => "f_read_status"
  | askId _ => "f_read_id"
  | command _ c => commandName c
  | print _ _ => "dbg"
  | remark _ => "note"
  | halt _ => "halt"

end Action

end CoopKernel
