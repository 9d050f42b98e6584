import CoopKernel.Event
import CoopKernel.Text.Quoted

/-!
# Transcripts

How replies and events are written. An event that only concerns the machine's
own order is not part of a transcript.
-/

namespace CoopKernel

namespace Reply

def record (fields : List (String × String)) : String :=
  "\x7b" ++ ",".intercalate (fields.map fun f => Quoted.encode f.1 ++ ":" ++ f.2) ++ "\x7d"

/-- The fields of a record are written in the order of their names. -/
def render : Reply → String
  | nothing => "null"
  | flag b => toString b
  | count n => toString n
  | text s => Quoted.encode s
  | task t => Quoted.encode t.name
  | turn s => Quoted.encode s.name
  | progress p => Quoted.encode p.name
  | device d =>
    record [("baud", toString d.baud), ("cs", toString d.line), ("debug", Quoted.encode d.literal),
      ("mode", toString d.mode.bits), ("regs", toString d.regs)]
  | polling r =>
    record [("config", toString r.loops), ("done", toString r.done),
      ("stats", Quoted.encode r.literal)]
  | refused cause =>
    record [("error", Quoted.encode cause.name), ("message", Quoted.encode cause.message)]

end Reply

namespace Event

def bit (b : Bool) : String := if b then "1" else "0"

def renderWire? (bus : Nat) : Wire → Option String
  | .tx byte => some s!"tx {bus} {Hex.byte byte}"
  | .rx byte => some s!"rx {bus} {Hex.byte byte}"
  | .checked _ _ => none

def render? : Event → Option String
  | wire bus w => renderWire? bus w
  | loaded bus regs => some s!"regs {bus} {Hex.byte regs}"
  | unloaded bus regs => some s!"unregs {bus} {Hex.byte regs}"
  | selected line => some s!"cs {line} on"
  | deselected line => some s!"cs {line} off"
  | taskRan t (.script script) enabled queued =>
    some s!"run {t.name} w{script} irq{bit enabled} queued{bit queued}"
  | handlerRan id script enabled => some s!"soft {id} w{script} irq{bit enabled}"
  | replied action reply => some s!"{action} -> {reply.render}"
  | exposed _ | enqueued _ _ | dequeued _ _ | submitted _ _ | granted _ _ => none
  | raised _ _ | served _ | slept | taskRan _ (.poller _) _ _ => none

end Event

end CoopKernel
