/-!
# Failures a caller can cause

Configuration values and handler ids are checked, and a refusal is reported as
a value. Each refusal has a sentence for people and a literal form that names
its constructor.
-/

namespace CoopKernel

inductive SettingError where
  | zeroPollBudget
  | bufferSizeNotPowerOfTwo (size : UInt64)
deriving DecidableEq, Repr

inductive HandlerError where
  | invalidId (id : Nat)
  | noHandler (id : Nat)
deriving DecidableEq, Repr

inductive Failure where
  | setting (cause : SettingError)
  | handler (cause : HandlerError)
deriving DecidableEq, Repr

namespace SettingError

def name : SettingError → String
  | zeroPollBudget => "ZeroPollBudget"
  | bufferSizeNotPowerOfTwo _ => "BufferSizeNotPowerOfTwo"

def message : SettingError → String
  | zeroPollBudget => "Polling budget must be at least one loop"
  | bufferSizeNotPowerOfTwo size => s!"Buffer size {size} is not a power of two"

def literal : SettingError → String
  | zeroPollBudget => "ZeroPollBudget"
  | bufferSizeNotPowerOfTwo size => s!"BufferSizeNotPowerOfTwo({size})"

end SettingError

namespace HandlerError

def name : HandlerError → String
  | invalidId _ => "InvalidId"
  | noHandler _ => "NoHandler"

def message : HandlerError → String
  | invalidId id => s!"Invalid soft interrupt id: {id}"
  | noHandler id => s!"No handler for soft interrupt {id}"

def literal : HandlerError → String
  | invalidId id => s!"InvalidId({id})"
  | noHandler id => s!"NoHandler({id})"

end HandlerError

namespace Failure

/-- The name of the cause, whichever part reports it. -/
def name : Failure → String
  | setting cause => cause.name
  | handler cause => cause.name

def message : Failure → String
  | setting cause => "Configuration error: " ++ cause.message
  | handler cause => "Soft interrupt error: " ++ cause.message

def literal : Failure → String
  | setting cause => s!"Config({cause.literal})"
  | handler cause => s!"SoftIrq({cause.literal})"

end Failure

end CoopKernel
