import CoopKernel.Machine.Perform
import CoopKernel.Proofs.OperationSteps

/-!
# Runs of the machine

However its scripts nest and wherever it stops, a run of the machine is a chain of
whole operations on its board with small steps between them. No operation is
taken apart, so that its critical sections are in the chain from end to end. What
a run preserves is read off its steps.
-/

namespace CoopKernel

open Exec

namespace Action

/-- The action takes a task out of a main queue by itself, or when its conversation is done. -/
inductive TakesFrom (i : Nat) : Action → Prop where
  | pop : TakesFrom i (.pop i)
  | drain (limit : Nat) : TakesFrom i (.drain i limit)
  | identified {chip : Nat} {done : List Action} {a : Action} (mem : a ∈ done)
    (takes : TakesFrom i a) : TakesFrom i (.identifyChip chip done)
  | awaited {chip : Nat} {done : List Action} {a : Action} (mem : a ∈ done)
    (takes : TakesFrom i a) : TakesFrom i (.awaitChip chip done)

/-- Main queues that are reserved are left to the main loop. -/
def Spares (reserved : Nat → Prop) (a : Action) : Prop := ∀ i, reserved i → ¬ a.TakesFrom i

/-- The operation on the board that an action is, if it is nothing else. -/
def operation? (b : Board) : Action → Option Board.Operation
  | .add q t => some (.add (.main q) (t.map .user))
  | .isEmpty q => some (.isEmpty (.main q))
  | .queueLiteral q => some (.count (.main q))
  | .bindWorker t script => some (.bindWorker t script)
  | .submit n t => some (.submit (.shared n) (.user t))
  | .handOver n => some (.handOver (.shared n))
  | .countFed n => some (.count (b.kernel.feeds (.shared n)))
  | .bindHandler id script => some (.bindHandler id (some script))
  | .tryBindHandler id script => some (.tryBindHandler id script)
  | .clearHandler id => some (.bindHandler id none)
  | .raise id => some (.raise id)
  | .transfer bus t => some (.start bus t)
  | .request bus t => some (.request bus (.user t))
  | .release bus => some (.release bus)
  | .select d => some (.select (b.devices.get d))
  | .deselect d => some (.deselect (b.devices.get d))
  | .requestChip i t => some (.request (b.chip i).device.bus (.user t))
  | .releaseChip i => some (.release (b.chip i).device.bus)
  | .selectChip i => some (.select (b.chip i).device)
  | .deselectChip i => some (.deselect (b.chip i).device)
  | .readChip i into => some (.start (b.chip i).device.bus (.readList into))
  | .writeChip i data => some (.start (b.chip i).device.bus (.writeList data))
  | .askStatus i => some (.askStatus i)
  | .askId i => some (.askId i)
  | .command i c => some (.command i c)
  | .print level text => some (.print level [text])
  | _ => none

theorem operation_ne_pop {a : Action} {b : Board} {op : Board.Operation}
    (is : a.operation? b = some op) (q : QueueId) : op ≠ .pop q := by
  rintro rfl
  cases a <;> simp [operation?] at is

end Action

namespace Machine

def Spares (reserved : Nat → Prop) (m : Machine) : Prop :=
  ∀ script run, ∀ a ∈ m.scripts script run, a.Spares reserved

def dispatched (id script : Nat) (m : Machine) : Machine :=
  m.modifyKernel (Kernel.dispatched id script)

/-- One step of a run. Only the main loop takes tasks out of a `reserved` main queue. -/
inductive Step (reserved : Nat → Prop) (m : Machine) : Machine → Prop where
  | operation (op : Board.Operation) (common : ∀ i, reserved i → op ≠ .pop (.main i)) :
    Step reserved m { m with board := final op.run m.board }
  | around {b : Board} (same : b.kernel = m.kernel) : Step reserved m { m with board := b }
  | cpu (c : Cpu) : Step reserved m (m.modifyKernel ({ · with cpu := c }))
  | remark {e : Event} (plain : e.isSoft = false ∧ e.isQueueing = false) :
    Step reserved m (m.modifyKernel (Kernel.note e))
  | dispatch {id script : Nat} (lowest : m.kernel.soft.lowest? = some id)
    (bound : m.kernel.soft.handlers.get id = some script) : Step reserved m (m.dispatched id script)
  | turn {q : QueueId} {t : TaskId} {w : Worker} (quiet : m.kernel.soft.lowest? = none)
    (first : (m.kernel.pop q).1 = some t)
    (worker : ((m.kernel.pop q).2.tasks.get t).worker = some w) :
    Step reserved m (m.modifyKernel (Kernel.turned q t w))
  | count (runs : Bank Nat Nat) : Step reserved m { m with runs := runs }
  | hold (t : Option TaskId) : Step reserved m { m with hand := t }
  | save : Step reserved m { m with saved := m.saved ++ [m.kernel.cpu.enabled] }
  | guard : Step reserved m { m with guards := m.guards ++ [some m.kernel.cpu.enabled] }
  | drop (i : Nat) : Step reserved m { m with guards := m.guards.set i none }

abbrev Steps (reserved : Nat → Prop) : Machine → Machine → Prop :=
  Relation.ReflTransGen (Step reserved)

/-- A dispatch found no handler or no worker. No step leads to where this leaves the kernel. -/
def Fails (m m' : Machine) : Prop :=
  ∃ k, (m.kernel.Unhandled k ∨ m.kernel.Workerless k) ∧ m' = m.modifyKernel fun _ => k

/-- A run that was stopped, perhaps by a dispatch that failed. -/
def Halts (reserved : Nat → Prop) (m m' : Machine) : Prop :=
  ∃ last, m.Steps reserved last ∧ (m' = last ∨ last.Fails m')

variable {reserved : Nat → Prop} {perform : List Action → Exec Machine Unit} {α β : Type}
variable {m m' m'' : Machine}

theorem Steps.halts (steps : m.Steps reserved m') : m.Halts reserved m' :=
  ⟨m', steps, Or.inl rfl⟩

theorem Steps.then_halts (steps : m.Steps reserved m') (halts : m'.Halts reserved m'') :
    m.Halts reserved m'' := by
  obtain ⟨last, more, ended⟩ := halts
  exact ⟨last, steps.trans more, ended⟩

theorem Steps.scripts (steps : m.Steps reserved m') : m'.scripts = m.scripts := by
  induction steps with
  | refl => rfl
  | tail _ step ih =>
    rw [← ih]
    cases step <;> rfl

theorem Steps.spares (steps : m.Steps reserved m') (spares : m.Spares reserved) :
    m'.Spares reserved := by
  rw [Spares, steps.scripts]
  exact spares

/-- What a step of the machine does to the kernel. -/
theorem Step.kernel (step : m.Step reserved m') : m.kernel.Steps reserved m'.kernel := by
  cases step with
  | operation op common => exact Board.steps_run op common m.board
  | @around b same =>
    change m.kernel.Steps reserved b.kernel
    rw [same]
  | cpu c => exact .single (.cpu c)
  | remark plain => exact .single (.remark _ plain)
  | dispatch lowest bound => exact .single (.dispatch lowest bound)
  | turn quiet first worker => exact .single (.turn quiet first worker)
  | _ => exact .refl

theorem Steps.kernel (steps : m.Steps reserved m') : m.kernel.Steps reserved m'.kernel := by
  induction steps with
  | refl => exact .refl
  | tail _ step ih => exact ih.trans step.kernel

theorem Halts.kernel (halts : m.Halts reserved m') : m.kernel.Halts reserved m'.kernel := by
  obtain ⟨last, steps, rfl | ⟨k, failed, rfl⟩⟩ := halts
  · exact steps.kernel.halts
  · exact ⟨last.kernel, steps.kernel, Or.inr failed⟩

/-- If scripts leave reserved queues alone, then a computation that returns takes steps, and one
that is stopped halts. -/
def WalksAt (reserved : Nat → Prop) (m : Machine) (x : Exec Machine α) : Prop :=
  m.Spares reserved → match x m with
  | .ok _ m' => m.Steps reserved m'
  | .error _ m' => m.Halts reserved m'

def Walks (reserved : Nat → Prop) (x : Exec Machine α) : Prop := ∀ m, WalksAt reserved m x

/-- A performer of the actions that scripts nest. -/
def Follows (reserved : Nat → Prop) (perform : List Action → Exec Machine Unit) : Prop :=
  ∀ list, (∀ a ∈ list, a.Spares reserved) → Walks reserved (perform list)

section

variable {x : Exec Machine α} {f : α → Exec Machine β}

theorem WalksAt.ok {a : α} (walks : WalksAt reserved m x) (spares : m.Spares reserved)
    (ran : x m = .ok a m') : m.Steps reserved m' := by
  have reached := walks spares
  rw [ran] at reached
  exact reached

theorem WalksAt.error {e : Stop} (walks : WalksAt reserved m x) (spares : m.Spares reserved)
    (ran : x m = .error e m') : m.Halts reserved m' := by
  have reached := walks spares
  rw [ran] at reached
  exact reached

theorem WalksAt.final (walks : WalksAt reserved m x) (spares : m.Spares reserved) :
    m.Halts reserved (final x m) := by
  cases ran : x m with
  | ok a m' =>
    rw [final_ok ran]
    exact (walks.ok spares ran).halts
  | error e m' =>
    rw [final_error ran]
    exact walks.error spares ran

/-- A computation that takes steps wherever it ends. -/
theorem walksAt_of_final (steps : m.Steps reserved (Exec.final x m)) : WalksAt reserved m x := by
  intro _
  cases ran : x m with
  | ok a m' =>
    rw [final_ok ran] at steps
    exact steps
  | error e m' =>
    rw [final_error ran] at steps
    exact steps.halts

/-- A computation that goes on as another one does from a later machine. -/
theorem walksAt_later {y : Exec Machine α} (same : x m = y m') (first : m.Steps reserved m')
    (rest : WalksAt reserved m' y) : WalksAt reserved m x := by
  intro spares
  have later := rest (first.spares spares)
  rw [same]
  cases ended : y m' with
  | ok a m'' =>
    rw [ended] at later
    exact first.trans later
  | error e m'' =>
    rw [ended] at later
    exact first.then_halts later

theorem walksAt_bind (first : WalksAt reserved m x)
    (rest : ∀ a m', x m = .ok a m' → WalksAt reserved m' (f a)) :
    WalksAt reserved m (x >>= f) := by
  intro spares
  cases ran : x m with
  | ok a m' =>
    exact walksAt_later (bind_ok ran) (first.ok spares ran) (rest a m' ran) spares
  | error e m' =>
    rw [bind_error ran]
    exact first.error spares ran

theorem walks_bind (first : Walks reserved x) (rest : ∀ a, Walks reserved (f a)) :
    Walks reserved (x >>= f) := fun m => walksAt_bind (first m) fun a m' _ => rest a m'

theorem walks_pure (a : α) : Walks reserved (pure a : Exec Machine α) := fun _ _ => .refl

theorem walks_throw (e : Stop) : Walks reserved (throw e : Exec Machine α) :=
  fun _ _ => Steps.halts .refl

/-- Reading the machine; what follows may use it. -/
theorem walks_get {f : Machine → Exec Machine β} (rest : ∀ m, WalksAt reserved m (f m)) :
    Walks reserved (get >>= f) := rest

theorem walks_modify {f : Machine → Machine} (steps : ∀ m : Machine, m.Steps reserved (f m)) :
    Walks reserved (modify f : Exec Machine PUnit) := fun m _ => steps m

theorem walks_forM {f : α → Exec Machine PUnit} {list : List α}
    (each : ∀ a ∈ list, Walks reserved (f a)) : Walks reserved (list.forM f) := by
  induction list with
  | nil => exact walks_pure _
  | cons a rest ih =>
    refine walks_bind (each a List.mem_cons_self) fun _ => ih ?_
    exact fun b mem => each b (List.mem_cons_of_mem a mem)

/-- An answer that is read off what was computed. -/
theorem walks_reply (walks : Walks reserved x) (reply : α → Reply) :
    Walks reserved (do return reply (← x)) := walks_bind walks fun _ => walks_pure _

theorem walks_withoutReply {x : Exec Machine Unit} (walks : Walks reserved x) :
    Walks reserved (withoutReply x) := walks_bind walks fun _ => walks_pure _

end

theorem final_onBoard (x : Exec Board α) (m : Machine) :
    final (onBoard x) m = { m with board := final x m.board } := by
  rw [final, final, onBoard, on]
  cases x m.board <;> rfl

/-- Operations drop their answers. -/
theorem final_dropped (x : Exec Board α) (b : Board) :
    final x b = final (do let _ ← x : Exec Board Unit) b := (final_answer x () b).symm

theorem walks_operation (op : Board.Operation) (common : ∀ i, reserved i → op ≠ .pop (.main i))
    {x : Exec Board α} (is : ∀ b, final x b = final op.run b) : Walks reserved (onBoard x) := by
  intro m
  apply walksAt_of_final
  rw [final_onBoard, is]
  exact .single (.operation op common)

theorem walks_pop {q : QueueId} (common : ∀ i, reserved i → q ≠ .main i) :
    Walks reserved (onKernel (modifyGet (Kernel.pop q))) := by
  refine walks_operation (.pop q) (fun i kept same => ?_) (final_dropped _)
  cases same
  exact common i kept rfl

theorem walks_note {e : Event} (plain : e.isSoft = false ∧ e.isQueueing = false) :
    Walks reserved (note e) := walks_modify fun _ => .single (.remark plain)

theorem walks_enable : Walks reserved (modify (modifyKernel Kernel.enable)) :=
  walks_modify fun m => .single (.cpu m.kernel.cpu.enable)

theorem walks_disable : Walks reserved (modify (modifyKernel Kernel.disable)) :=
  walks_modify fun m => .single (.cpu m.kernel.cpu.disable)

theorem walks_sleep : Walks reserved (modify (modifyKernel Kernel.sleep)) :=
  walks_modify fun m => .tail (.single (.cpu m.kernel.cpu.sleep)) (.remark (e := .slept) ⟨rfl, rfl⟩)

end Machine

end CoopKernel
