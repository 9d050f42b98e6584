import CoopKernel.Proofs.ChipTraffic
import CoopKernel.Proofs.InterruptFlag

/-!
# Operations on a board

All that code on a board may call, as one type. What a chip does is followed
once: apart from a transfer that it may start at the end, it only frames itself,
prints, and keeps records of its own.
-/

namespace CoopKernel

open Spi Exec

namespace Kernel

variable {k : Kernel}

theorem final_bindHandler (id : Nat) (script : Option Nat) (k : Kernel) :
    final (bindHandler id script) k =
      if id < k.soft.slots then (k.enclosed fun k => ((), k.putHandler id script)).2 else k := by
  rw [final, bindHandler]
  by_cases inside : id < k.soft.slots
  · rw [if_pos inside, if_pos inside]
  · rw [if_neg inside, if_neg inside]

/-- What is reported to the caller makes no difference to the kernel. -/
theorem final_tryBindHandler (id script : Nat) (k : Kernel) :
    final (tryBindHandler id script) k = final (bindHandler id (some script)) k := by
  by_cases inside : id < k.soft.slots
  · rw [final, tryBindHandler, if_pos inside, final]
    cases bindHandler id (some script) k <;> rfl
  · rw [final, tryBindHandler, final_bindHandler, if_neg inside, if_neg inside]

theorem final_raise (id : Nat) (k : Kernel) :
    final (raise id) k =
      if id < k.soft.slots then
        { k with soft := k.soft.mark id }.note (.raised id (!k.soft.pending.getLsbD id))
      else k := by
  rw [final, raise]
  by_cases inside : id < k.soft.slots
  · rw [if_pos inside, if_pos inside]
  · rw [if_neg inside, if_neg inside]

end Kernel

namespace Board

/-- A task takes its worker from a script. Tasks that wait for a resource are counted in its
private queue, and a chip is read and written by transfers on its bus. -/
inductive Operation where
  | add (q : QueueId) (t : Option TaskId)
  | pop (q : QueueId)
  | isEmpty (q : QueueId)
  | count (q : QueueId)
  | submit (n : NestId) (t : TaskId)
  | handOver (n : NestId)
  | bindWorker (task script : Nat)
  | bindHandler (id : Nat) (script : Option Nat)
  | tryBindHandler (id script : Nat)
  | raise (id : Nat)
  | start (bus : Nat) (t : Transfer)
  | request (bus : Nat) (t : TaskId)
  | release (bus : Nat)
  | runPoller (bus : Nat)
  | select (d : Device)
  | deselect (d : Device)
  | identifyChip (i : Nat)
  | awaitChip (i : Nat)
  | askStatus (i : Nat)
  | askId (i : Nat)
  | command (i : Nat) (c : Flash.Command)
  | print (level : Level) (message : List String)

/-- Answers are dropped. -/
def Operation.run : Operation → Exec Board Unit
  | add q t => do let _ ← onKernel (Kernel.addOptional q t)
  | pop q => do let _ ← onKernel (modifyGet (Kernel.pop q))
  | isEmpty q => do let _ ← onKernel (modifyGet (Kernel.isEmpty q))
  | count q => do let _ ← onKernel (modifyGet (Kernel.count q))
  | submit n t => do let _ ← onKernel (Kernel.submit n t)
  | handOver n => onKernel (Kernel.handOver n)
  | bindWorker task script => onKernel (modify (Kernel.putWorker (.user task) (.script script)))
  | bindHandler id script => onKernel (Kernel.bindHandler id script)
  | tryBindHandler id script => do let _ ← onKernel (Kernel.tryBindHandler id script)
  | raise id => onKernel (Kernel.raise id)
  | start bus t => Board.start bus t
  | request bus t => do let _ ← Board.request bus t
  | release bus => Board.release bus
  | runPoller bus => Board.runPoller bus
  | select d => modify (Board.select d)
  | deselect d => modify (Board.deselect d)
  | identifyChip i => do let _ ← Board.identifyChip i
  | awaitChip i => do let _ ← Board.awaitChip i
  | askStatus i => Board.askStatus i
  | askId i => Board.askId i
  | command i c => Board.command i c
  | print level message => Board.print level message

theorem start_refused {bus : Nat} {t : Transfer} {cause : Fault} {b : Board}
    (refused : t.fault? = some cause) : Board.start bus t b = .error (.fault cause) b := by
  simp only [Board.start, refused]

theorem final_onKernel {α : Type} (x : Exec Kernel α) (b : Board) :
    final (onKernel x) b = { b with kernel := final x b.kernel } := by
  cases ran : x b.kernel with
  | ok a k => rw [final_ok (onKernel_ok ran), final_ok ran]
  | error e k => rw [final_error (onKernel_error ran), final_error ran]

/-- Devices were framed, something was printed, and what a chip or the memory holds may have
changed, but not where chip `i` is. -/
structure Beside (i : Nat) (b b' : Board) : Prop where
  device : (b'.chip i).device = (b.chip i).device
  flag : b'.kernel.cpu.enabled = b.kernel.cpu.enabled
  tasks : b'.kernel.tasks = b.kernel.tasks
  queues : b'.kernel.queues = b.kernel.queues
  nests : b'.kernel.nests = b.kernel.nests
  soft : b'.kernel.soft = b.kernel.soft
  trace : ∃ events, b'.kernel.trace = events ++ b.kernel.trace ∧
    ∀ e ∈ events, e.isFraming = true
  transfers : ∀ bus, (b.masters.get bus).SameTransfer (b'.masters.get bus)

/-- At most one transfer was started, last, and on the bus of chip `i`. -/
def Asks (i : Nat) (b b' : Board) : Prop :=
  ∃ mid, Beside i b mid ∧
    (b' = mid ∨ ∃ t, b' = final (start (b.chip i).device.bus t) mid)

variable {b b' b₁ : Board} {i : Nat}

theorem Beside.refl (i : Nat) (b : Board) : Beside i b b :=
  ⟨rfl, rfl, rfl, rfl, rfl, rfl, ⟨[], rfl, fun _ mem => by cases mem⟩, fun _ => .refl _⟩

theorem Beside.trans (h : Beside i b b₁) (h' : Beside i b₁ b') : Beside i b b' where
  device := h'.device.trans h.device
  flag := h'.flag.trans h.flag
  tasks := h'.tasks.trans h.tasks
  queues := h'.queues.trans h.queues
  nests := h'.nests.trans h.nests
  soft := h'.soft.trans h.soft
  trace := by
    obtain ⟨events, trace, framing⟩ := h.trace
    obtain ⟨later, trace', framing'⟩ := h'.trace
    refine ⟨later ++ events, ?_, fun e mem => ?_⟩
    · rw [trace', trace, List.append_assoc]
    · exact (List.mem_append.mp mem).elim (framing' e) (framing e)
  transfers bus := (h.transfers bus).trans (h'.transfers bus)

theorem leads_beside (i : Nat) : Leads (Beside i) (Beside i) := ⟨id, Beside.trans⟩

theorem leads_asks (i : Nat) : Leads (Beside i) (Asks i) where
  stop h := ⟨_, h, Or.inl rfl⟩
  trans h h' := by
    obtain ⟨mid, beside, ended⟩ := h'
    rw [h.device] at ended
    exact ⟨mid, h.trans beside, ended⟩

theorem beside_select (i : Nat) (d : Device) (b : Board) : Beside i b (b.select d) where
  device := rfl
  flag := rfl
  tasks := rfl
  queues := rfl
  nests := rfl
  soft := rfl
  trace := ⟨[.selected d.line, .loaded d.bus d.regs], rfl, by simp [Event.isFraming]⟩
  transfers bus := by
    change (b.masters.get bus).SameTransfer ((b.masters.modify d.bus _).get bus)
    rw [Bank.get_modify]
    split
    · rename_i same
      subst same
      constructor <;> rfl
    · exact .refl _

theorem beside_deselect (i : Nat) (d : Device) (b : Board) : Beside i b (b.deselect d) :=
  ⟨rfl, rfl, rfl, rfl, rfl, rfl, ⟨[.unloaded d.bus d.regs, .deselected d.line], rfl,
    by simp [Event.isFraming]⟩, fun _ => .refl _⟩

theorem beside_modifyChip {f : Chip → Chip} (stays : ∀ c, (f c).device = c.device) (i j : Nat)
    (b : Board) : Beside i b (b.modifyChip j f) := by
  refine ⟨?_, rfl, rfl, rfl, rfl, rfl, ⟨[], rfl, fun _ mem => by cases mem⟩, fun _ => .refl _⟩
  change ((b.chips.modify j f).get i).device = (b.chips.get i).device
  rw [Bank.get_modify]
  split
  · rename_i same
    rw [stays, same]
  · rfl

theorem obeys_print (i : Nat) (level : Level) (message : List String) :
    Obeys (Beside i) (print level message) := by
  intro b
  rw [final, print]
  cases printed : Terminal.message level (message.map fun s => s.toUTF8.toList)
    ⟨b.kernel.cpu, b.terminal⟩ with
  | none => exact .refl i b
  | some line =>
    have flag : line.cpu.enabled = b.kernel.cpu.enabled := Terminal.message_keeps _ _ _ _ printed
    exact ⟨rfl, flag, rfl, rfl, rfl, rfl, ⟨[], rfl, fun _ mem => by cases mem⟩, fun _ => .refl _⟩

theorem obeys_change {f : Chip → Chip} (i : Nat)
    (stays : ∀ c, (f c).device = c.device := by intro _; rfl) :
    Obeys (Beside i) (modify (modifyChip i f) : Exec Board PUnit) :=
  fun b => beside_modifyChip stays i i b

theorem obeys_setStep (i : Nat) (step : Flash.Step) :
    Obeys (Beside i) (modify (setStep i step) : Exec Board PUnit) := obeys_change i

theorem obeys_selectChip (i : Nat) :
    Obeys (Beside i) (modify (selectChip i) : Exec Board PUnit) :=
  fun b => beside_select i (b.chip i).device b

theorem obeys_deselectChip (i : Nat) :
    Obeys (Beside i) (modify (deselectChip i) : Exec Board PUnit) :=
  fun b => beside_deselect i (b.chip i).device b

theorem asks_sendScratch (i : Nat) (bytes : List UInt8) :
    Obeys (Asks i) (sendScratch i bytes) := by
  intro b
  let span : Span := ⟨(b.chip i).scratch, bytes.length⟩
  refine ⟨{ b with memory := span.store b.memory bytes }, ?_, Or.inr ⟨.write (.cells span), rfl⟩⟩
  exact ⟨rfl, rfl, rfl, rfl, rfl, rfl, ⟨[], rfl, fun _ mem => by cases mem⟩, fun _ => .refl _⟩

theorem asks_readScratch (i length : Nat) : Obeys (Asks i) (readScratch i length) :=
  fun b => ⟨b, .refl i b, Or.inr ⟨.read ⟨(b.chip i).scratch, length⟩, rfl⟩⟩

theorem asks_command (i : Nat) (c : Flash.Command) : Obeys (Asks i) (command i c) := by
  rw [command]
  split
  · exact fun b => ⟨b, .refl i b, Or.inl rfl⟩
  · exact asks_sendScratch i _

theorem asks_openConversation (i : Nat) (step : Flash.Step) :
    Obeys (Asks i) (openConversation i step) :=
  (leads_asks i).bind (obeys_setStep i step) fun _ =>
    (leads_asks i).bind (obeys_selectChip i) fun _ => asks_sendScratch i _

theorem beside_breakOff (i : Nat) (operation : Flash.Operation) :
    Obeys (Beside i) (breakOff i operation) :=
  obeys_get fun b => by
    dsimp only
    split
    · exact fun b => .refl i b
    · exact (leads_beside i).bind (obeys_print i _ _) fun _ =>
        (leads_beside i).bind (obeys_deselectChip i) fun _ => obeys_setStep i _

theorem beside_recordId (i : Nat) : Obeys (Beside i) (recordId i) :=
  obeys_get fun b => by
    dsimp only
    refine (leads_beside i).bind (obeys_print i _ _) fun _ => ?_
    split
    · exact (leads_beside i).bind (obeys_change i) fun _ => obeys_print i _ _
    · split
      · exact fun b => .refl i b
      · exact (leads_beside i).bind (obeys_change i) fun _ =>
          (leads_beside i).bind (obeys_print i _ _) fun _ => obeys_print i _ _

theorem asks_identifyChip (i : Nat) : Obeys (Asks i) (identifyChip i) :=
  obeys_get fun b => by
    split
    · exact (asks_openConversation i _).answer _
    · exact (leads_asks i).bind (obeys_setStep i _) fun _ => (asks_readScratch i 1).answer _
    · refine obeys_get fun b => ?_
      dsimp only
      split
      · exact (asks_readScratch i 1).answer _
      · exact (leads_asks i).bind (obeys_deselectChip i) fun _ =>
          (leads_asks i).bind (obeys_print i _ _) fun _ =>
            (leads_asks i).bind (obeys_change i) fun _ =>
              (leads_asks i).bind (obeys_selectChip i) fun _ => (asks_sendScratch i _).answer _
    · exact (leads_asks i).bind (obeys_setStep i _) fun _ => (asks_readScratch i 4).answer _
    · exact (leads_asks i).bind (obeys_deselectChip i) fun _ =>
        (leads_asks i).bind (obeys_setStep i _) fun _ =>
          (leads_asks i).bind (beside_recordId i) fun _ b => ⟨b, .refl i b, Or.inl rfl⟩
    all_goals exact (leads_asks i).bind (beside_breakOff i _) fun _ =>
      (asks_openConversation i _).answer _

theorem asks_awaitChip (i : Nat) : Obeys (Asks i) (awaitChip i) :=
  obeys_get fun b => by
    split
    · exact (asks_openConversation i _).answer _
    · exact (leads_asks i).bind (obeys_setStep i _) fun _ => (asks_readScratch i 1).answer _
    · refine (leads_asks i).bind (obeys_deselectChip i) fun _ => obeys_get fun b => ?_
      split
      · exact (asks_openConversation i _).answer _
      · exact (leads_asks i).bind (obeys_setStep i _) fun _ b => ⟨b, .refl i b, Or.inl rfl⟩
    all_goals exact (leads_asks i).bind (beside_breakOff i _) fun _ =>
      (asks_openConversation i _).answer _

end Board

end CoopKernel
