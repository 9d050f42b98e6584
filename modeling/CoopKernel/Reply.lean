import CoopKernel.Fault
import CoopKernel.Names
import CoopKernel.Settings
import CoopKernel.Spi.Mode

/-!
# Replies

What an action answers.
-/

namespace CoopKernel

/-- Outcome of one turn of the main loop. -/
inductive Turn where
  | ran
  | idle
deriving DecidableEq, Repr

def Turn.name : Turn → String
  | ran => "Ran"
  | idle => "Idle"

/-- A device on a bus: its settings and the chip select line it is wired to. -/
structure Device where
  bus : Nat
  mode : Spi.Mode := .mode0
  baud : UInt32 := 0
  regs : UInt8 := 0
  line : Nat := 0
deriving DecidableEq, Repr, Inhabited

def Device.literal (d : Device) : String :=
  "SpiDevice \x7b mode: " ++ d.mode.name ++ ", baud_rate: " ++ toString d.baud ++ ", regs: "
    ++ toString d.regs ++ ", cs: Cs(" ++ toString d.line ++ ") \x7d"

/-- Budget and counters of a bus master. -/
structure PollReport where
  loops : UInt16
  polls : UInt32
  yields : UInt32
  done : Bool
deriving DecidableEq, Repr

def PollReport.literal (r : PollReport) : String :=
  "SpiStats \x7b polls: " ++ toString r.polls ++ ", yields: " ++ toString r.yields ++ " \x7d"

inductive Reply where
  | nothing
  | flag (b : Bool)
  | count (n : Nat)
  | text (s : String)
  | task (t : TaskId)
  | turn (s : Turn)
  | progress (p : Flash.Progress)
  | device (d : Device)
  | polling (r : PollReport)
  | refused (cause : Failure)
deriving DecidableEq, Repr

end CoopKernel
