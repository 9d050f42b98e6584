import CoopKernel.Proofs.ChipRecord

/-!
# Calls of two operations

A chip is identified and waited for in conversations of several calls, and a
call finds the chip wherever the last one left it, in the middle of its own
conversation or in that of the other operation. Everything such a call can do is
said once.
-/

namespace CoopKernel

namespace Flash

def Step.owner? : Step → Option Operation
  | .idle => none
  | .identifyFetchStatus | .identifyGotStatus | .identifyFetchId | .identifyGotId => some .identify
  | .waitFetchStatus | .waitGotStatus => some .await

namespace Operation

def statusAsked : Operation → Step
  | identify => .identifyFetchStatus
  | await => .waitFetchStatus

def statusRead : Operation → Step
  | identify => .identifyGotStatus
  | await => .waitGotStatus

end Operation

end Flash

namespace Board

open Flash (Progress)

variable {b b' b₁ : Board} {i : Nat} {d : Device} {c c' : Chip} {es : List Event}

def call (i : Nat) : Flash.Operation → Exec Board Progress
  | .identify => identifyChip i
  | .await => awaitChip i

theorem shown_silent (chip : b'.chip i = c) (trace : b'.kernel.trace = b.kernel.trace) :
    Shown i d c [] b b' where
  chip := chip
  record := by rw [Kernel.record, trace, List.append_nil, Kernel.record]

theorem shown_modifyChip (now : b.chip i = c) (f : Chip → Chip) :
    Shown i d (f c) [] b (b.modifyChip i f) :=
  shown_silent (by rw [chip_modifyChip, now]) rfl

theorem shown_setStep (now : b.chip i = c) (step : Flash.Step) :
    Shown i d { c with step } [] b (setStep i step b) :=
  shown_modifyChip now ({ · with step })

theorem shown_select (now : b.chip i = c) :
    Shown i c.device c c.device.opened b (selectChip i b) where
  chip := now
  record := by
    simp [selectChip, select, now, Kernel.record, note, Kernel.note, modifyController, modifyMaster,
      Event.concerns, Device.opened]

theorem shown_deselect (now : b.chip i = c) :
    Shown i c.device c c.device.closed b (deselectChip i b) where
  chip := now
  record := by
    simp [deselectChip, deselect, now, Kernel.record, note, Kernel.note, Event.concerns,
      Device.closed]

theorem print_shown (now : b.chip i = c) (d : Device) (level : Level) (text : List String) :
    ∃ b', print level text b = .ok () b' ∧ Shown i d c [] b b' := by
  obtain ⟨cpu, terminal, printed⟩ := print_ok level text b
  exact ⟨_, printed, shown_silent now rfl⟩

theorem openConversation_exchanges (now : b.chip i = c) (step : Flash.Step) :
    ∃ b₁, openConversation i step b = .ok () b₁ ∧
      Exchanges i { c with step } c.device.opened [Flash.Opcode.status]
        (fun got _ => got.length = 1) b b₁ := by
  have stepped := shown_setStep (d := c.device) now step
  have selected := shown_select stepped.chip
  obtain ⟨b₁, started, exchange⟩ := sendScratch_exchanges selected.chip
    [Flash.Opcode.status] (by simp) (by simp)
  have whole := exchange.after (stepped.trans selected)
  rw [List.append_nil] at whole
  exact ⟨b₁, started, whole⟩

theorem fetch_exchanges (now : b.chip i = c) (step : Flash.Step) (n : Nat) (some : n ≠ 0)
    (fits : n ≤ 5) :
    ∃ b₁, readScratch i n (setStep i step b) = .ok () b₁ ∧
      Exchanges i { c with step } [] (List.replicate n 0)
        (fun got b₂ => got = (List.range n).map fun k => b₂.scratch i k) b b₁ := by
  have stepped := shown_setStep (d := c.device) now step
  obtain ⟨b₁, started, exchange⟩ := readScratch_exchanges stepped.chip n some fits
  exact ⟨b₁, started, exchange.after stepped⟩

/-- Unless this is a fault, the chip is left. -/
theorem breakOff_shown (now : b.chip i = c) (op : Flash.Operation) (lenient : b.strict = false) :
    ∃ b₁, breakOff i op b = .ok () b₁ ∧
      Shown i c.device { c with step := .idle } c.device.closed b b₁ := by
  obtain ⟨b₁, printed, still⟩ := print_shown now c.device .warning
    ["at45_device: ", op.name, " abandons step ", (b.chip i).step.name, "\n"]
  have left := shown_deselect still.chip
  have stepped := shown_setStep (d := c.device) left.chip .idle
  have whole := (still.trans left).trans stepped
  rw [List.append_nil] at whole
  refine ⟨_, ?_, whole⟩
  rw [breakOff, Exec.get_bind]
  simp only [lenient, Bool.false_eq_true, if_false]
  rw [Exec.bind_ok printed]
  rfl

def Silent (b b' : Board) : Prop := b'.kernel.trace = b.kernel.trace

theorem leads_silent : Exec.Leads Silent Silent := ⟨id, fun h h' => Eq.trans h' h⟩

theorem silent_print (level : Level) (text : List String) :
    Exec.Obeys Silent (print level text) := by
  intro b
  obtain ⟨cpu, terminal, printed⟩ := print_ok level text b
  rw [Exec.final_ok printed]
  rfl

theorem silent_modifyChip (i : Nat) (f : Chip → Chip) :
    Exec.Obeys Silent (modify (modifyChip i f) : Exec Board PUnit) := fun _ => rfl

theorem silent_recordId (i : Nat) : Exec.Obeys Silent (recordId i) :=
  Exec.obeys_get fun b => by
    dsimp only
    refine leads_silent.bind (silent_print _ _) fun _ => ?_
    split
    · exact leads_silent.bind (silent_modifyChip i _) fun _ => silent_print _ _
    · split
      · exact fun b => rfl
      · exact leads_silent.bind (silent_modifyChip i _) fun _ =>
          leads_silent.bind (silent_print _ _) fun _ => silent_print _ _

/-- The id bytes are taken over. -/
theorem recordId_shown (now : b.chip i = c) (d : Device) :
    ∃ b', recordId i b = .ok () b' ∧
      Shown i d (c.identified (b.scratch i 0) (b.scratch i 1)) [] b b' := by
  obtain ⟨b', recorded, told⟩ := recordId_ok now d
  have silent := silent_recordId i b
  rw [Exec.final_ok recorded] at silent
  exact ⟨b', recorded, shown_silent told.chip silent⟩

inductive CallOutcome (i : Nat) (b : Board) : Flash.Operation → Progress → Board → Prop where
  /-- The chip is idle: it is selected and its status asked for. -/
  | opens {op : Flash.Operation} {b₁ : Board} (found : (b.chip i).step = .idle)
    (exchange : Exchanges i { b.chip i with step := op.statusAsked } (b.chip i).device.opened
      [Flash.Opcode.status] (fun got _ => got.length = 1) b b₁) : CallOutcome i b op .pending b₁
  | fetchesStatus {op : Flash.Operation} {b₁ : Board} (found : (b.chip i).step = op.statusAsked)
    (exchange : Exchanges i { b.chip i with step := op.statusRead } [] [0]
      (fun got b₂ => got = [b₂.scratch i 0]) b b₁) : CallOutcome i b op .pending b₁
  /-- An identification reads the status until the chip is ready. -/
  | readsAgain {b₁ : Board} (found : (b.chip i).step = .identifyGotStatus)
    (busy : b.scratch i 0 &&& Flash.readyBit = 0)
    (exchange : Exchanges i (b.chip i) [] [0] (fun got b₂ => got = [b₂.scratch i 0]) b b₁) :
    CallOutcome i b .identify .pending b₁
  | asksId {b₁ : Board} (found : (b.chip i).step = .identifyGotStatus)
    (ready : b.scratch i 0 &&& Flash.readyBit ≠ 0)
    (exchange : Exchanges i
      { b.chip i with
        protect := b.scratch i 0 &&& Flash.protectBit ≠ 0, step := .identifyFetchId }
      ((b.chip i).device.closed ++ (b.chip i).device.opened) [Flash.Opcode.id]
      (fun got _ => got.length = 1) b b₁) : CallOutcome i b .identify .pending b₁
  | fetchesId {b₁ : Board} (found : (b.chip i).step = .identifyFetchId)
    (exchange : Exchanges i { b.chip i with step := .identifyGotId } [] (List.replicate 4 0)
      (fun got b₂ => got = (List.range 4).map fun k => b₂.scratch i k) b b₁) :
    CallOutcome i b .identify .pending b₁
  | identified {b₁ : Board} (found : (b.chip i).step = .identifyGotId)
    (shown : Shown i (b.chip i).device
      (({ b.chip i with step := .idle } : Chip).identified (b.scratch i 0) (b.scratch i 1))
      (b.chip i).device.closed b b₁) : CallOutcome i b .identify .done b₁
  /-- A wait selects the chip anew to read its status another time. -/
  | asksAnew {b₁ : Board} (found : (b.chip i).step = .waitGotStatus)
    (busy : b.scratch i 0 &&& Flash.readyBit = 0)
    (exchange : Exchanges i { b.chip i with step := .waitFetchStatus }
      ((b.chip i).device.closed ++ (b.chip i).device.opened) [Flash.Opcode.status]
      (fun got _ => got.length = 1) b b₁) : CallOutcome i b .await .pending b₁
  | ready {b₁ : Board} (found : (b.chip i).step = .waitGotStatus)
    (ready : b.scratch i 0 &&& Flash.readyBit ≠ 0)
    (shown : Shown i (b.chip i).device { b.chip i with step := .idle }
      (b.chip i).device.closed b b₁) : CallOutcome i b .await .done b₁
  /-- The other operation is left in the middle. -/
  | abandons {op other : Flash.Operation} {b₁ : Board} (found : (b.chip i).step.owner? = some other)
    (differs : other ≠ op) (lenient : b.strict = false)
    (exchange : Exchanges i { b.chip i with step := op.statusAsked }
      ((b.chip i).device.closed ++ (b.chip i).device.opened) [Flash.Opcode.status]
      (fun got _ => got.length = 1) b b₁) : CallOutcome i b op .pending b₁

theorem call_idle (op : Flash.Operation) (found : (b.chip i).step = .idle) :
    ∃ b₁, call i op b = .ok .pending b₁ ∧ CallOutcome i b op .pending b₁ := by
  obtain ⟨b₁, opened, exchange⟩ := openConversation_exchanges rfl op.statusAsked
  refine ⟨b₁, ?_, .opens found exchange⟩
  cases op with
  | identify =>
    rw [call, identifyChip, Exec.get_bind, found]
    exact Exec.bind_ok opened
  | await =>
    rw [call, awaitChip, Exec.get_bind, found]
    exact Exec.bind_ok opened

theorem call_statusAsked (op : Flash.Operation) (found : (b.chip i).step = op.statusAsked) :
    ∃ b₁, call i op b = .ok .pending b₁ ∧ CallOutcome i b op .pending b₁ := by
  obtain ⟨b₁, started, exchange⟩ := fetch_exchanges rfl op.statusRead 1 (by simp) (by simp)
  refine ⟨b₁, ?_, .fetchesStatus found exchange⟩
  cases op with
  | identify =>
    rw [call, identifyChip, Exec.get_bind, found]
    exact Exec.bind_ok started
  | await =>
    rw [call, awaitChip, Exec.get_bind, found]
    exact Exec.bind_ok started

/-- A busy status byte is read again; a ready one is followed by the question for the id. -/
theorem identify_statusRead (found : (b.chip i).step = .identifyGotStatus) :
    ∃ b₁, identifyChip i b = .ok .pending b₁ ∧ CallOutcome i b .identify .pending b₁ := by
  by_cases busy : b.scratch i 0 &&& Flash.readyBit = 0
  · obtain ⟨b₁, started, exchange⟩ := readScratch_exchanges rfl 1 (by simp) (by simp)
    refine ⟨b₁, ?_, .readsAgain found busy exchange⟩
    rw [identifyChip, Exec.get_bind, found]
    simp only [Exec.get_bind, busy, if_true]
    exact Exec.bind_ok started
  · have left := shown_deselect (b := b) (i := i) rfl
    obtain ⟨b₁, printed, still⟩ := print_shown left.chip (b.chip i).device .info
      (["at45_device: Status register: 0x"] ++ hexPieces (b.scratch i 0) ++ ["\n"])
    have changed := shown_modifyChip (d := (b.chip i).device) still.chip
      ({ · with protect := b.scratch i 0 &&& Flash.protectBit ≠ 0, step := .identifyFetchId })
    have selected := shown_select changed.chip
    have framed := ((left.trans still).trans changed).trans selected
    obtain ⟨b₂, started, exchange⟩ := sendScratch_exchanges framed.chip
      [Flash.Opcode.id] (by simp) (by simp)
    refine ⟨b₂, ?_, .asksId found busy ?_⟩
    · rw [identifyChip, Exec.get_bind, found]
      simp only [Exec.get_bind, if_neg busy, Exec.modify_bind]
      rw [Exec.bind_ok printed]
      exact Exec.bind_ok started
    · have whole := exchange.after framed
      simpa using whole

theorem identify_idAsked (found : (b.chip i).step = .identifyFetchId) :
    ∃ b₁, identifyChip i b = .ok .pending b₁ ∧ CallOutcome i b .identify .pending b₁ := by
  obtain ⟨b₁, started, exchange⟩ := fetch_exchanges rfl .identifyGotId 4 (by simp) (by simp)
  refine ⟨b₁, ?_, .fetchesId found exchange⟩
  rw [identifyChip, Exec.get_bind, found]
  exact Exec.bind_ok started

theorem identify_idRead (found : (b.chip i).step = .identifyGotId) :
    ∃ b₁, identifyChip i b = .ok .done b₁ ∧ CallOutcome i b .identify .done b₁ := by
  have left := shown_deselect (b := b) (i := i) rfl
  have stepped := shown_setStep (d := (b.chip i).device) left.chip .idle
  obtain ⟨b₁, recorded, told⟩ := recordId_shown stepped.chip (b.chip i).device
  have kept : ∀ k, (setStep i .idle (deselectChip i b)).scratch i k = b.scratch i k := by
    intro k
    rw [scratch, stepped.chip, scratch]
    rfl
  rw [kept, kept] at told
  refine ⟨b₁, ?_, .identified found (by simpa using (left.trans stepped).trans told)⟩
  rw [identifyChip, Exec.get_bind, found]
  exact Exec.bind_ok recorded

theorem await_statusRead (found : (b.chip i).step = .waitGotStatus) :
    ∃ p b₁, awaitChip i b = .ok p b₁ ∧ CallOutcome i b .await p b₁ := by
  have left := shown_deselect (b := b) (i := i) rfl
  have kept : (deselectChip i b).scratch i 0 = b.scratch i 0 := rfl
  by_cases busy : b.scratch i 0 &&& Flash.readyBit = 0
  · obtain ⟨b₁, opened, exchange⟩ := openConversation_exchanges left.chip .waitFetchStatus
    refine ⟨.pending, b₁, ?_, .asksAnew found busy (exchange.after left)⟩
    rw [awaitChip, Exec.get_bind, found]
    simp only [Exec.modify_bind, Exec.get_bind, kept, busy, if_true]
    exact Exec.bind_ok opened
  · have stepped := shown_setStep (d := (b.chip i).device) left.chip .idle
    refine ⟨.done, _, ?_, .ready found busy (by simpa using left.trans stepped)⟩
    rw [awaitChip, Exec.get_bind, found]
    simp only [Exec.modify_bind, Exec.get_bind, kept, if_neg busy]
    rfl

/-- A call by the other operation leaves the conversation, or is a fault that changes nothing. -/
theorem call_other (op : Flash.Operation) {other : Flash.Operation}
    (found : (b.chip i).step.owner? = some other) (differs : other ≠ op) :
    (b.strict = false → ∃ b₁, call i op b = .ok .pending b₁ ∧ CallOutcome i b op .pending b₁) ∧
      (b.strict = true →
        call i op b = .error (.fault (.conversationBroken op (b.chip i).step)) b) := by
  have same : call i op b = (do
      breakOff i op
      openConversation i op.statusAsked
      return Progress.pending : Exec Board Progress) b := by
    cases op with
    | identify =>
      rw [call, identifyChip, Exec.get_bind]
      cases step : (b.chip i).step <;> rw [step] at found <;> cases found <;>
        first | rfl | exact absurd rfl differs
    | await =>
      rw [call, awaitChip, Exec.get_bind]
      cases step : (b.chip i).step <;> rw [step] at found <;> cases found <;>
        first | rfl | exact absurd rfl differs
  rw [same]
  constructor
  · intro lenient
    obtain ⟨b₁, broken, left⟩ := breakOff_shown rfl op lenient
    obtain ⟨b₂, opened, exchange⟩ := openConversation_exchanges left.chip op.statusAsked
    refine ⟨b₂, ?_, .abandons found differs lenient (exchange.after left)⟩
    rw [Exec.bind_ok broken]
    exact Exec.bind_ok opened
  · intro strict
    refine Exec.bind_error ?_
    rw [breakOff, Exec.get_bind]
    simp only [strict, if_true]
    rfl

/-- A call moves its own conversation on, or ends it. -/
theorem call_own (op : Flash.Operation) (found : (b.chip i).step.owner? = some op) :
    ∃ p b₁, call i op b = .ok p b₁ ∧ CallOutcome i b op p b₁ := by
  cases step : (b.chip i).step <;> rw [step] at found <;> cases found
  · exact ⟨_, call_statusAsked .identify step⟩
  · exact ⟨_, identify_statusRead step⟩
  · exact ⟨_, identify_idAsked step⟩
  · exact ⟨_, identify_idRead step⟩
  · exact ⟨_, call_statusAsked .await step⟩
  · exact await_statusRead step

/-- Unless faults are fatal and the call would leave a conversation of the other operation, it
succeeds. -/
theorem call_outcome (op : Flash.Operation)
    (lenient : b.strict = false ∨ ∀ other, (b.chip i).step.owner? = some other → other = op) :
    ∃ p b₁, call i op b = .ok p b₁ ∧ CallOutcome i b op p b₁ := by
  cases owner : (b.chip i).step.owner? with
  | none =>
    have idle : (b.chip i).step = .idle := by
      cases step : (b.chip i).step <;> rw [step] at owner <;> first | rfl | cases owner
    exact ⟨_, call_idle op idle⟩
  | some other =>
    by_cases same : other = op
    · subst same
      exact call_own other owner
    · rcases lenient with lenient | own
      · exact ⟨_, (call_other op owner same).1 lenient⟩
      · exact absurd (own other owner) same

theorem CallOutcome.of_call {op : Flash.Operation} {p : Progress} (ran : call i op b = .ok p b₁) :
    CallOutcome i b op p b₁ := by
  have lenient : b.strict = false ∨ ∀ other, (b.chip i).step.owner? = some other → other = op := by
    by_contra fatal
    obtain ⟨strict, abandons⟩ := not_or.mp fatal
    push Not at abandons
    obtain ⟨other, owner, differs⟩ := abandons
    have refused := (call_other op owner differs).2 (by simpa using strict)
    rw [ran] at refused
    cases refused
  obtain ⟨p', b₂, same, outcome⟩ := call_outcome op lenient
  rw [ran] at same
  cases same
  exact outcome

end Board

end CoopKernel
