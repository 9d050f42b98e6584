/-!
# The interrupt flag of the one CPU

A critical section saves the flag, clears it, and sets it again afterwards only
if the saved flag was set. Sections therefore nest: the inner one leaves the
flag clear for the outer one.
-/

namespace CoopKernel

/-- The flag is set at boot. Sleeps and disables are counted. -/
structure Cpu where
  enabled : Bool := true
  sleeps : Nat := 0
  disables : Nat := 0
deriving DecidableEq, Repr

namespace Cpu

def enable (c : Cpu) : Cpu := { c with enabled := true }

def disable (c : Cpu) : Cpu := { c with enabled := false, disables := c.disables + 1 }

/-- The interrupt that ends the sleep is served, so the flag is set on return. -/
def sleep (c : Cpu) : Cpu := { c with enabled := true, sleeps := c.sleeps + 1 }

def restore (saved : Bool) (c : Cpu) : Cpu := if saved then c.enable else c

@[simp] theorem enabled_enable (c : Cpu) : c.enable.enabled = true := rfl
@[simp] theorem enabled_disable (c : Cpu) : c.disable.enabled = false := rfl
@[simp] theorem enabled_sleep (c : Cpu) : c.sleep.enabled = true := rfl

theorem enabled_restore (saved : Bool) (c : Cpu) :
    (c.restore saved).enabled = (saved || c.enabled) := by
  cases saved <;> rfl

end Cpu

end CoopKernel
