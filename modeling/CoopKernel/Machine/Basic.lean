import CoopKernel.Board.Flash
import CoopKernel.Machine.Action

/-!
# The machine

A board together with the scripts that its tasks and handlers follow. A script
gives the actions of each run by the number of earlier runs.
-/

namespace CoopKernel

abbrev Script := Nat → List Action

/-- The last step repeats; a script without steps does nothing. -/
def Script.ofSteps (steps : Array (List Action)) : Script := fun run =>
  steps.getD (min run (steps.size - 1)) []

structure Machine where
  board : Board := {}
  scripts : Nat → Script := fun _ _ => []
  /-- How often each script ran. -/
  runs : Bank Nat Nat := ⟨0, #[]⟩
  /-- The task that was popped last. -/
  hand : Option TaskId := none
  saved : List Bool := []
  /-- The saved flags of the guards; a dropped guard is `none`. -/
  guards : List (Option Bool) := []

namespace Machine

def onBoard {α : Type} (x : Exec Board α) : Exec Machine α :=
  x.on Machine.board fun b m => { m with board := b }

def onKernel {α : Type} (x : Exec Kernel α) : Exec Machine α := onBoard (Board.onKernel x)

def kernel (m : Machine) : Kernel := m.board.kernel

def modifyKernel (f : Kernel → Kernel) (m : Machine) : Machine :=
  { m with board := { m.board with kernel := f m.board.kernel } }

def modifyBoard (f : Board → Board) (m : Machine) : Machine := { m with board := f m.board }

def note (e : Event) : Exec Machine Unit := modify (modifyKernel (Kernel.note e))

end Machine

end CoopKernel
