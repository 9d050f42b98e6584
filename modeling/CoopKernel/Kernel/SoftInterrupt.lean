import CoopKernel.Kernel.Basic

/-!
# Soft interrupts

Raising sets a pending bit; raising again before the handler ran changes
nothing. The lowest pending id is served first.
-/

namespace CoopKernel

namespace SoftTable

def isPending (s : SoftTable) (id : Nat) : Bool := id < s.slots && s.pending.getLsbD id

def hasPending (s : SoftTable) : Bool := s.pending ≠ 0

def lowest? (s : SoftTable) : Option Nat := (List.range 32).find? s.pending.getLsbD

def pendingIds (s : SoftTable) : List Nat := (List.range s.slots).filter s.isPending

def mark (id : Nat) (s : SoftTable) : SoftTable :=
  { s with pending := s.pending ||| BitVec.twoPow 32 id }

def clear (id : Nat) (s : SoftTable) : SoftTable :=
  { s with pending := s.pending &&& ~~~ BitVec.twoPow 32 id }

end SoftTable

namespace Kernel

/-- Bind or clear the handler of an id. -/
def bindHandler (id : Nat) (script : Option Nat) : Exec Kernel Unit := fun k =>
  if id < k.soft.slots then
    let (_, k') := k.enclosed fun k => ((), k.putHandler id script)
    .ok () k'
  else .error (.fault (.softIdOutOfRange id)) k

/-- The same, with an id outside the table reported to the caller. -/
def tryBindHandler (id script : Nat) : Exec Kernel (Except Failure Unit) := fun k =>
  if id < k.soft.slots then
    match bindHandler id (some script) k with
    | .ok _ k' => .ok (.ok ()) k'
    | .error e k' => .error e k'
  else .ok (.error (.handler (.invalidId id))) k

def raise (id : Nat) : Exec Kernel Unit := fun k =>
  if id < k.soft.slots then
    .ok () ({ k with soft := k.soft.mark id }.note (.raised id (!k.soft.pending.getLsbD id)))
  else .error (.fault (.softIdOutOfRange id)) k

/-- Take the lowest pending id for service: its bit is cleared before its handler runs. -/
def takeLowest (k : Kernel) : Option Nat × Kernel :=
  match k.soft.lowest? with
  | none => (none, k)
  | some id => (some id, { k with soft := k.soft.clear id }.note (.served id))

end Kernel

end CoopKernel
