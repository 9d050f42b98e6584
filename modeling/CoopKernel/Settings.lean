import CoopKernel.Failure

/-!
# Settings

The values a board picks before it runs: message levels, buffer sizes and the
polling budget. A budget is never zero, because a poll that may look at the
ready flag zero times would never move a byte.
-/

namespace CoopKernel

/-- Severity of a message; the lowest number is the most severe. -/
abbrev Level := UInt8

namespace Level

def error : Level := 0
def warning : Level := 1
def info : Level := 2
def verbose : Level := 3

/-- Messages above this level are left out. -/
def limit : Level := info

def enabled (level : Level) : Bool := level ≤ limit

end Level

/-- Size of a console's buffer when none is chosen. -/
def defaultBufferSize : Nat := 64

/-- A stream size is a mask plus one, so it has to be a power of two. -/
def checkBufferSize (size : UInt64) : Except SettingError UInt64 :=
  if size ≠ 0 ∧ size &&& (size - 1) = 0 then .ok size
  else .error (.bufferSizeNotPowerOfTwo size)

/-- How many looks at the ready flag one run of a poll task may take. -/
structure PollBudget where
  loops : UInt16
  loops_ne_zero : loops ≠ 0
deriving DecidableEq

namespace PollBudget

def standard : PollBudget := ⟨255, by decide⟩

def ofLoops (loops : UInt16) : Except SettingError PollBudget :=
  if h : loops ≠ 0 then .ok ⟨loops, h⟩ else .error .zeroPollBudget

def literal (b : PollBudget) : String :=
  "PollConfig \x7b max_loops: " ++ toString b.loops ++ " \x7d"

instance : Inhabited PollBudget := ⟨standard⟩

end PollBudget

/-- Whether the last polled operation has finished. -/
inductive Status where
  | ok
  | inProgress
deriving DecidableEq, Repr, Inhabited

namespace Status

def isDone : Status → Bool
  | ok => true
  | inProgress => false

def message : Status → String
  | ok => "OK"
  | inProgress => "Operation in progress"

def literal : Status → String
  | ok => "Ok"
  | inProgress => "InProgress"

end Status

end CoopKernel
