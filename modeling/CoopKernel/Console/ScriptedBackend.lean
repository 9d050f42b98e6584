import CoopKernel.Console.Channel

/-!
# A backend that follows a script

Every call takes the next entry of its list: how many bytes to take out of the
stream and, for a request for room, what to answer. The answer need not be true.
-/

namespace CoopKernel

inductive BackendEvent where
  | room (goal used : Nat) (enabled : Bool) (took : List UInt8)
  | commit (used : Nat) (enabled : Bool) (took : List UInt8)
deriving DecidableEq, Repr

structure ScriptedBackend where
  room : List (Nat × Bool) := []
  commits : List Nat := []
  /-- Newest first. -/
  trace : List BackendEvent := []

namespace ScriptedBackend

def note (e : BackendEvent) (b : ScriptedBackend) : ScriptedBackend :=
  { b with trace := e :: b.trace }

/-- With no entry left, room is refused and a commit takes everything. -/
def backend : Backend ScriptedBackend where
  free goal c :=
    let (n, answer) := c.hardware.room.headD (0, false)
    let (took, stream) := c.stream.popUpTo n
    let next := { c.hardware with room := c.hardware.room.tail }
    let event := .room goal c.stream.held c.cpu.enabled took
    some (answer, { c with stream, hardware := next.note event })
  commit c :=
    let (took, stream) := c.stream.popUpTo (c.hardware.commits.headD c.stream.held)
    let next := { c.hardware with commits := c.hardware.commits.tail }
    let event := .commit c.stream.held c.cpu.enabled took
    some { c with stream, hardware := next.note event }

end ScriptedBackend

end CoopKernel
