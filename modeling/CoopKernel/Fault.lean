import CoopKernel.Failure
import CoopKernel.Flash.Step

/-!
# Contract violations

A caller that breaks a contract stops the machine. A fault names the cause, and
its message is what is reported. A run that used up its allowance of steps is
kept apart from a fault: it says nothing about the caller.
-/

namespace CoopKernel

inductive Fault where
  | queuedWithoutWorker
  | ranWithoutWorker
  | softIdOutOfRange (id : Nat)
  | polledWithInterruptsEnabled
  | noHandler (id : Nat)
  | emptyBufferList
  | exchangeLengths (write read : Nat)
  | exchangeListLengths (write read : Nat)
  | exchangePairLengths
  | pageOutOfRange (page : UInt16)
  | positionOutOfRange (position : UInt16)
  | conversationBroken (operation : Flash.Operation) (step : Flash.Step)
  | densityOutOfRange (density : Nat)
  | halted (text : String)
deriving DecidableEq, Repr

namespace Fault

/-- How a failed comparison is reported: both sides on lines of their own. -/
def comparison (claim left right : String) : String :=
  "assertion \x60left == right\x60 failed: " ++ claim ++ "\n  left: " ++ left
    ++ "\n right: " ++ right

def message : Fault → String
  | queuedWithoutWorker => "queued task has no worker"
  | ranWithoutWorker => "work queue task has no worker"
  | softIdOutOfRange id => s!"soft interrupt id {id} out of range"
  | polledWithInterruptsEnabled => "soft interrupts polled with interrupts enabled"
  | noHandler id => (HandlerError.noHandler id).message
  | emptyBufferList => "SPI buffer list is empty"
  | exchangeLengths w r =>
    comparison "SPI exchange buffers differ in length" (toString w) (toString r)
  | exchangeListLengths w r =>
    comparison "SPI exchange lists differ in length" (toString w) (toString r)
  | exchangePairLengths => "SPI exchange buffers differ in length"
  | pageOutOfRange page => s!"AT45 page {page} out of range"
  | positionOutOfRange position => s!"AT45 page position {position} out of range"
  | conversationBroken operation step =>
    comparison s!"AT45 {operation.name} started during another operation" step.name
      Flash.Step.idle.name
  | densityOutOfRange density =>
    s!"index out of bounds: the len is 9 but the index is {density}"
  | halted text => "halt: " ++ text

end Fault

/-- Why a run ended early. -/
inductive Stop where
  | fault (cause : Fault)
  | hung
deriving DecidableEq, Repr

/-- A computation on a state that a fault may stop; the state then stays as the fault left it. -/
abbrev Exec (σ : Type) := EStateM Stop σ

namespace Exec

variable {σ τ α : Type}

def fail (cause : Fault) : Exec σ α := throw (.fault cause)

/-- Run on a part of a larger state. -/
def on (view : τ → σ) (put : σ → τ → τ) (x : Exec σ α) : Exec τ α := fun t =>
  match x (view t) with
  | .ok a s => .ok a (put s t)
  | .error e s => .error e (put s t)

end Exec

end CoopKernel
