import CoopKernel.Console.PacedUart
import CoopKernel.Console.ScriptedBackend
import CoopKernel.Text.Hex

/-!
# Transcripts of a console's hardware

One line for every event, with the interrupt flag of the moment.
-/

namespace CoopKernel

def flagText (enabled : Bool) : String := if enabled then "irq1" else "irq0"

def UartEvent.render : UartEvent → String
  | busy byte enabled => s!"busy {Hex.byte byte} {flagText enabled}"
  | rejected byte enabled => s!"reject {Hex.byte byte} {flagText enabled}"
  | put byte enabled => s!"put {Hex.byte byte} {flagText enabled}"
  | looked left enabled => s!"check {left} {flagText enabled}"

def BackendEvent.render : BackendEvent → String
  | room goal used enabled took =>
    s!"room goal{goal} used{used} {flagText enabled} took={Hex.bytes took}"
  | commit used enabled took => s!"commit used{used} {flagText enabled} took={Hex.bytes took}"

end CoopKernel
