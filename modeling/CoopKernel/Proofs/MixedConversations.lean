import CoopKernel.Proofs.CallRecords
import CoopKernel.Proofs.MixedCalls

/-!
# Conversations of two operations

Calls of both operations on one chip in any order, each made while no transfer
is in progress on its bus. However the calls are mixed, the select line goes up
and down in turn and is up as long as a conversation goes on, and a conversation
ends with bytes that came in since the line was last selected.
-/

namespace CoopKernel

open Spi

/-- The ways to select and deselect a device; the flag says whether its line is asserted. -/
inductive Framed (d : Device) : Bool → List Event → Prop where
  | nothing : Framed d false []
  | other {asserted : Bool} {es : List Event} {e : Event} (before : Framed d asserted es)
    (apart : e.edge? d.line = none) : Framed d asserted (es ++ [e])
  | opened {es : List Event} (before : Framed d false es) : Framed d true (es ++ d.opened)
  | closed {es : List Event} (before : Framed d true es) : Framed d false (es ++ d.closed)

namespace Framed

variable {d : Device} {asserted : Bool} {es more before after : List Event} {e x : Event}

theorem others (h : Framed d asserted es) (apart : ∀ e ∈ more, e.edge? d.line = none) :
    Framed d asserted (es ++ more) := by
  induction more using List.reverseRecOn with
  | nil => rwa [List.append_nil]
  | append_singleton more e ih =>
    rw [← List.append_assoc]
    have first := ih fun e mem => apart e (List.mem_append_left _ mem)
    exact first.other (apart e (List.mem_append_right _ (List.mem_singleton_self e)))

theorem traffic (h : Framed d asserted es) (ws : List Wire) :
    Framed d asserted (es ++ d.traffic ws) := by
  refine h.others fun e mem => ?_
  obtain ⟨w, -, rfl⟩ := List.mem_map.mp mem
  rfl

/-- By induction: the line goes up first, then down and up in turn. -/
theorem alternates (h : Framed d asserted es) :
    ∃ n, es.filterMap (Event.edge? d.line) = (List.range n).map (fun k => decide (k % 2 = 0)) ∧
      (asserted = true ↔ n % 2 = 1) := by
  induction h with
  | nothing => exact ⟨0, rfl, by simp⟩
  | other _ apart ih =>
    obtain ⟨n, edges, odd⟩ := ih
    exact ⟨n, by simp [edges, apart], odd⟩
  | opened _ ih =>
    obtain ⟨n, edges, odd⟩ := ih
    have even : n % 2 = 0 := by simpa using odd
    refine ⟨n + 1, ?_, by simp; omega⟩
    rw [List.filterMap_append, edges, List.range_succ, List.map_append]
    simp [Device.opened, Event.edge?, even, List.filterMap_cons]
  | closed _ ih =>
    obtain ⟨n, edges, odd⟩ := ih
    have odd' : n % 2 = 1 := odd.mp rfl
    refine ⟨n + 1, ?_, by simp; omega⟩
    rw [List.filterMap_append, edges, List.range_succ, List.map_append]
    simp [Device.closed, Event.edge?, odd']

/-- Every selection follows the settings of the device. -/
theorem loaded (h : Framed d asserted es) (split : es = before ++ .selected d.line :: after) :
    ∃ earlier, before = earlier ++ [.loaded d.bus d.regs] := by
  induction h generalizing after with
  | nothing => simp at split
  | other _ apart ih =>
    rcases split_append split with ⟨rest, same, -⟩ | ⟨inner, -, last⟩
    · exact ih same
    · cases inner <;> simp at last
      simp [last, Event.edge?] at apart
  | @opened es _ ih =>
    rcases split_append split with ⟨rest, same, -⟩ | ⟨inner, rfl, last⟩
    · exact ih same
    · obtain _ | ⟨first, inner⟩ := inner
      · simp [Device.opened] at last
      · cases inner <;> simp [Device.opened] at last
        exact ⟨es, by rw [last.1]⟩
  | closed _ ih =>
    rcases split_append split with ⟨rest, same, -⟩ | ⟨inner, -, last⟩
    · exact ih same
    · obtain _ | ⟨first, inner⟩ := inner
      · simp [Device.closed] at last
      · cases inner <;> simp [Device.closed] at last

/-- Every deselection is followed by the release of the settings. -/
theorem unloaded (h : Framed d asserted es) (split : es = before ++ .deselected d.line :: after) :
    ∃ later, after = .unloaded d.bus d.regs :: later := by
  induction h generalizing after with
  | nothing => simp at split
  | other _ apart ih =>
    rcases split_append split with ⟨rest, same, rfl⟩ | ⟨inner, -, last⟩
    · obtain ⟨later, rfl⟩ := ih same
      exact ⟨later ++ _, rfl⟩
    · cases inner <;> simp at last
      simp [last, Event.edge?] at apart
  | opened _ ih =>
    rcases split_append split with ⟨rest, same, rfl⟩ | ⟨inner, -, last⟩
    · obtain ⟨later, rfl⟩ := ih same
      exact ⟨later ++ _, rfl⟩
    · obtain _ | ⟨first, inner⟩ := inner
      · simp [Device.opened] at last
      · cases inner <;> simp [Device.opened] at last
  | closed _ ih =>
    rcases split_append split with ⟨rest, same, rfl⟩ | ⟨inner, -, last⟩
    · obtain ⟨later, rfl⟩ := ih same
      exact ⟨later ++ _, rfl⟩
    · obtain _ | ⟨first, inner⟩ := inner
      · simp only [Device.closed, List.nil_append, List.cons.injEq, true_and] at last
        exact ⟨[], last.symm⟩
      · cases inner <;> simp [Device.closed] at last

end Framed

namespace Board

open Flash (Progress)

variable {b b' b₁ b₂ : Board} {i : Nat} {d : Device} {op : Flash.Operation} {p : Progress}

/-- What has come in for the conversation that a chip is in the middle of, once the transfer of
the last call is complete. A byte that is looked at next came in since the last selection. -/
def Place (i : Nat) (d : Device) (b : Board) : Prop :=
  match (b.chip i).step with
  | .idle => True
  | .identifyFetchStatus | .waitFetchStatus =>
    ∃ earlier es, b.kernel.record d = earlier ++ es ∧ d.Session Flash.Opcode.status [] es
  | .identifyGotStatus =>
    ∃ earlier answers es, b.kernel.record d = earlier ++ es ∧
      d.Session Flash.Opcode.status (answers ++ [b.scratch i 0]) es
  | .waitGotStatus =>
    ∃ earlier es, b.kernel.record d = earlier ++ es ∧
      d.Session Flash.Opcode.status [b.scratch i 0] es
  | .identifyFetchId =>
    ∃ earlier answers status es es', b.kernel.record d = earlier ++ es ++ d.closed ++ es' ∧
      d.Session Flash.Opcode.status (answers ++ [status]) es ∧ status &&& Flash.readyBit ≠ 0 ∧
      d.Session Flash.Opcode.id [] es'
  | .identifyGotId =>
    ∃ earlier answers status es es', b.kernel.record d = earlier ++ es ++ d.closed ++ es' ∧
      d.Session Flash.Opcode.status (answers ++ [status]) es ∧ status &&& Flash.readyBit ≠ 0 ∧
      d.Session Flash.Opcode.id ((List.range 4).map fun k => b.scratch i k) es'

theorem place_of_idle (idle : (b.chip i).step = .idle) : Place i d b := by
  rw [Place, idle]
  trivial

theorem place_of_statusAsked (op : Flash.Operation) {earlier es : List Event}
    (record : b.kernel.record d = earlier ++ es) (step : (b.chip i).step = op.statusAsked)
    (session : d.Session Flash.Opcode.status [] es) : Place i d b := by
  rw [Place, step]
  cases op <;> exact ⟨earlier, es, record, session⟩

/-- A conversation that was opened. -/
theorem place_of_opening (op : Flash.Operation) (es : List Event) {c : Chip}
    (exchange : Exchanges i c (es ++ d.opened) [Flash.Opcode.status] (fun got _ => got.length = 1)
      b b₁) (at_device : c.device = d) (step : c.step = op.statusAsked)
    (turns : QuietTurns i b₁ b₂) (done : (b₂.masters.get d.bus).status = .ok) :
    Place i d b₂ := by
  subst at_device
  obtain ⟨ws, shown, sent, one⟩ := exchange.complete b₂ turns done
  have record : b₂.kernel.record c.device = b.kernel.record c.device ++ es ++
      (c.device.opened ++ c.device.traffic ws) := by
    rw [shown.record]
    simp
  refine place_of_statusAsked op record ?_ ⟨ws, rfl, .asked sent one⟩
  rw [shown.chip, step]

/-- A call takes a conversation from one place to the next. -/
theorem Place.next (place : Place i d b) (at_device : (b.chip i).device = d)
    (outcome : CallOutcome i b op p b₁) (turns : QuietTurns i b₁ b₂)
    (done : (b₂.masters.get d.bus).status = .ok) : Place i d b₂ := by
  subst at_device
  rw [Place] at place
  cases outcome with
  | opens found exchange =>
    exact place_of_opening op [] exchange rfl rfl turns done
  | fetchesStatus found exchange =>
    obtain ⟨ws, shown, sent, got⟩ := exchange.complete b₂ turns done
    cases op with
    | identify =>
      rw [found] at place
      obtain ⟨earlier, es, record, session⟩ := place
      rw [Place, shown.chip]
      refine ⟨earlier, [], _, ?_, session.more got sent⟩
      rw [shown.record, record]
      simp
    | await =>
      rw [found] at place
      obtain ⟨earlier, es, record, session⟩ := place
      rw [Place, shown.chip]
      refine ⟨earlier, _, ?_, session.more got sent⟩
      rw [shown.record, record]
      simp
  | readsAgain found busy exchange =>
    obtain ⟨ws, shown, sent, got⟩ := exchange.complete b₂ turns done
    rw [found] at place
    obtain ⟨earlier, answers, es, record, session⟩ := place
    rw [Place, shown.chip, found]
    refine ⟨earlier, _, _, ?_, session.more got sent⟩
    rw [shown.record, record]
    simp
  | asksId found ready exchange =>
    obtain ⟨ws, shown, sent, one⟩ := exchange.complete b₂ turns done
    rw [found] at place
    obtain ⟨earlier, answers, es, record, session⟩ := place
    rw [Place, shown.chip]
    refine ⟨earlier, answers, _, es, _, ?_, session, ready, ws, rfl, .asked sent one⟩
    rw [shown.record, record]
    simp
  | fetchesId found exchange =>
    obtain ⟨ws, shown, sent, got⟩ := exchange.complete b₂ turns done
    rw [found] at place
    obtain ⟨earlier, answers, status, es, es', record, session, ready, asked⟩ := place
    rw [Place, shown.chip]
    refine ⟨earlier, answers, status, es, _, ?_, session, ready,
      asked.more got sent⟩
    rw [shown.record, record]
    simp
  | identified found shown =>
    obtain ⟨-, ws, still⟩ := quietTurns_shown turns
    refine place_of_idle ?_
    rw [still.chip, shown.chip, Chip.identified_step]
  | asksAnew found busy exchange =>
    exact place_of_opening .await _ exchange rfl rfl turns done
  | ready found ready shown =>
    obtain ⟨-, ws, still⟩ := quietTurns_shown turns
    refine place_of_idle ?_
    rw [still.chip, shown.chip]
  | abandons found differs lenient exchange =>
    exact place_of_opening op _ exchange rfl rfl turns done

/-- What a call does to the line of a chip, asserted or not before and after. -/
inductive Framing (d : Device) : Bool → Bool → List Event → Prop where
  | opens : Framing d false true d.opened
  | stays : Framing d true true []
  | reopens : Framing d true true (d.closed ++ d.opened)
  | closes : Framing d true false d.closed

variable {first seen es : List Event} {asserted asserted' : Bool} {c : Chip}

theorem Framing.framed (h : Framing d asserted asserted' es) (before : Framed d asserted seen) :
    Framed d asserted' (seen ++ es) := by
  cases h with
  | opens => exact before.opened
  | stays =>
    rw [List.append_nil]
    exact before
  | reopens =>
    rw [← List.append_assoc]
    exact before.closed.opened
  | closes => exact before.closed

theorem isIdle_of {step : Flash.Step} (found : c.step = step) :
    c.isIdle = decide (step = .idle) := by
  rw [Chip.isIdle, found]

/-- A transfer that was started does nothing to the line but what came before it. -/
theorem Exchanges.framing {out : List UInt8} {answer : List UInt8 → Board → Prop}
    (exchange : Exchanges i c es out answer b b₁)
    (framing : Framing c.device (!(b.chip i).isIdle) (!c.isIdle) es) :
    ∃ es ws c', Shown i c.device c' (es ++ c.device.traffic ws) b b₁ ∧
      c'.device = c.device ∧ Framing c.device (!(b.chip i).isIdle) (!c'.isIdle) es := by
  obtain ⟨ws, begun⟩ := exchange.begun
  exact ⟨es, ws, c, begun, rfl, framing⟩

theorem Shown.framing (shown : Shown i d c es b b₁) (at_device : c.device = d)
    (framing : Framing d asserted (!c.isIdle) es) :
    ∃ es ws c', Shown i d c' (es ++ d.traffic ws) b b₁ ∧
      c'.device = d ∧ Framing d asserted (!c'.isIdle) es := by
  rw [← List.append_nil es] at shown
  exact ⟨es, [], c, shown, at_device, framing⟩

/-- Every call frames the line in one of the ways that keep it up exactly while a conversation is
open. -/
theorem CallOutcome.framing (outcome : CallOutcome i b op p b₁) :
    ∃ es ws c, Shown i (b.chip i).device c (es ++ (b.chip i).device.traffic ws) b b₁ ∧
      c.device = (b.chip i).device ∧
      Framing (b.chip i).device (!(b.chip i).isIdle) (!c.isIdle) es := by
  cases outcome with
  | opens found exchange =>
    refine exchange.framing ?_
    rw [isIdle_of found]
    cases op <;> exact .opens
  | fetchesStatus found exchange =>
    refine exchange.framing ?_
    rw [isIdle_of found]
    cases op <;> exact .stays
  | readsAgain found busy exchange =>
    refine exchange.framing ?_
    rw [isIdle_of found]
    exact .stays
  | asksId found ready exchange =>
    refine exchange.framing ?_
    rw [isIdle_of found]
    exact .reopens
  | fetchesId found exchange =>
    refine exchange.framing ?_
    rw [isIdle_of found]
    exact .stays
  | identified found shown =>
    refine shown.framing (Chip.identified_device _) ?_
    rw [isIdle_of found, isIdle_of (Chip.identified_step _)]
    exact .closes
  | asksAnew found busy exchange =>
    refine exchange.framing ?_
    rw [isIdle_of found]
    exact .reopens
  | ready found ready shown =>
    refine shown.framing rfl ?_
    rw [isIdle_of found]
    exact .closes
  | abandons found differs lenient exchange =>
    refine exchange.framing ?_
    have going : (b.chip i).isIdle = false := by
      cases step : (b.chip i).step <;> rw [step] at found <;> cases found <;> exact isIdle_of step
    rw [going]
    cases op <;> exact .reopens

/-- Anything that may happen from `b` on while calls are made: calls, when no transfer is in
progress on the bus; quiet turns; and between two conversations anything that leaves the chip and
its line alone. The id bytes of completed identifications are listed, the latest ones first. -/
inductive History (i : Nat) (b : Board) : List (UInt8 × UInt8) → Board → Prop where
  | start : History i b [] b
  | call {ids : List (UInt8 × UInt8)} {b₁ b₂ : Board} {op : Flash.Operation} {p : Progress}
    (before : History i b ids b₁) (ready : (b₁.masters.get (b₁.chip i).device.bus).status = .ok)
    (called : call i op b₁ = .ok p b₂) :
    History i b (if op = .identify ∧ p = .done then
      b₁.kernel.idBytes (b₁.chip i).device :: ids else ids) b₂
  | turn {ids : List (UInt8 × UInt8)} {b₁ b₂ : Board} (before : History i b ids b₁)
    (turn : QuietTurn i b₁ b₂) : History i b ids b₂
  | between {ids : List (UInt8 × UInt8)} {b₁ b₂ : Board} {es : List Event}
    (before : History i b ids b₁) (idle : (b₁.chip i).step = .idle)
    (chip : b₂.chip i = b₁.chip i)
    (record : b₂.kernel.record (b₁.chip i).device = b₁.kernel.record (b₁.chip i).device ++ es)
    (apart : ∀ e ∈ es, e.edge? (b₁.chip i).device.line = none) : History i b ids b₂

/-- The invariant: since `first` the line went up and down in turn and now is up unless the chip
is idle, and the conversation is in its place once the transfer of the last call is complete. -/
structure InPlace (i : Nat) (d : Device) (first : List Event) (b : Board) : Prop where
  at_device : (b.chip i).device = d
  framed : ∃ seen, b.kernel.record d = first ++ seen ∧ Framed d (!(b.chip i).isIdle) seen
  place : ∃ b₀, QuietTurns i b₀ b ∧
    ∀ b', QuietTurns i b₀ b' → (b'.masters.get d.bus).status = .ok → Place i d b'

namespace InPlace

/-- An idle chip is in its place whatever is done. -/
theorem of_idle (at_device : (b.chip i).device = d)
    (framed : ∃ seen, b.kernel.record d = first ++ seen ∧ Framed d (!(b.chip i).isIdle) seen)
    (idle : (b.chip i).step = .idle) : InPlace i d first b := by
  refine ⟨at_device, framed, b, .refl, fun b' turns _ => ?_⟩
  obtain ⟨-, ws, still⟩ := quietTurns_shown turns
  apply place_of_idle
  rw [still.chip, idle]

theorem call (h : InPlace i d first b) (ready : (b.masters.get (b.chip i).device.bus).status = .ok)
    (called : call i op b = .ok p b₁) : InPlace i d first b₁ := by
  obtain ⟨rfl, ⟨seen, split, framed⟩, b₀, turns, settles⟩ := h
  have outcome := CallOutcome.of_call called
  have place := settles b turns ready
  obtain ⟨es, ws, c, shown, same, framing⟩ := outcome.framing
  refine ⟨by rw [shown.chip, same], ⟨seen ++ es ++ (b.chip i).device.traffic ws, ?_, ?_⟩,
    b₁, .refl, fun b₂ turns done => place.next rfl outcome turns done⟩
  · rw [shown.record, split]
    simp
  · rw [shown.chip]
    exact (framing.framed framed).traffic ws

theorem turn (h : InPlace i d first b) (turn : QuietTurn i b b') : InPlace i d first b' := by
  obtain ⟨rfl, ⟨seen, split, framed⟩, b₀, turns, settles⟩ := h
  obtain ⟨ws, shown⟩ := turn.shown
  refine ⟨by rw [shown.chip], ⟨seen ++ (b.chip i).device.traffic ws, ?_, ?_⟩, b₀,
    turns.tail turn, settles⟩
  · rw [shown.record, split, List.append_assoc]
  · rw [shown.chip]
    exact framed.traffic ws

theorem between (h : InPlace i d first b) (idle : (b.chip i).step = .idle)
    (chip : b'.chip i = b.chip i)
    (record : b'.kernel.record (b.chip i).device = b.kernel.record (b.chip i).device ++ es)
    (apart : ∀ e ∈ es, e.edge? (b.chip i).device.line = none) : InPlace i d first b' := by
  obtain ⟨rfl, ⟨seen, split, framed⟩, -⟩ := h
  refine of_idle (by rw [chip]) ⟨seen ++ es, ?_, ?_⟩ (by rw [chip, idle])
  · rw [record, split, List.append_assoc]
  · rw [chip]
    exact framed.others apart

theorem start (idle : (b.chip i).step = .idle) :
    InPlace i (b.chip i).device (b.kernel.record (b.chip i).device) b := by
  refine of_idle rfl ⟨[], (List.append_nil _).symm, ?_⟩ idle
  rw [isIdle_of idle]
  exact .nothing

/-- By induction on the history. -/
theorem of_history {ids : List (UInt8 × UInt8)} (idle : (b.chip i).step = .idle)
    (history : History i b ids b₁) :
    InPlace i (b.chip i).device (b.kernel.record (b.chip i).device) b₁ := by
  induction history with
  | start => exact start idle
  | call _ ready called ih => exact ih.call ready called
  | turn _ turn ih => exact ih.turn turn
  | between _ resting chip record apart ih => exact ih.between resting chip record apart

theorem now (h : InPlace i d first b) (done : (b.masters.get d.bus).status = .ok) :
    Place i d b := by
  obtain ⟨-, -, b₀, turns, settles⟩ := h
  exact settles b turns done

/-- A wait is over only after a ready status byte. -/
theorem await_done (h : InPlace i d first b) (ready : (b.masters.get d.bus).status = .ok)
    (called : awaitChip i b = .ok .done b₁) :
    ∃ status, Wire.Talk 0xd7 [status] (b.kernel.session d) ∧ status &&& 0x80 ≠ 0 := by
  have place := h.now ready
  have outcome : CallOutcome i b .await .done b₁ := .of_call called
  cases outcome with
  | ready found set shown =>
    rw [Place, found] at place
    obtain ⟨earlier, _, record, ws, rfl, talk⟩ := place
    rw [← List.append_assoc] at record
    rw [Kernel.session_of_record record]
    exact ⟨_, talk, set⟩

/-- An identification is over only after a ready status byte, and with the four bytes that came in
since the id was asked for. -/
theorem identify_done (h : InPlace i d first b) (ready : (b.masters.get d.bus).status = .ok)
    (called : identifyChip i b = .ok .done b₁) :
    ∃ manufacturer device part extra,
      Wire.Talk 0x9f [manufacturer, device, part, extra] (b.kernel.session d) ∧
      b₁.chip i = ({ b.chip i with step := .idle } : Chip).identified manufacturer device ∧
      ∃ earlier es answers status,
        b.kernel.record d =
          earlier ++ es ++ d.closed ++ d.opened ++ d.traffic (b.kernel.session d) ∧
        d.Session 0xd7 (answers ++ [status]) es ∧ status &&& 0x80 ≠ 0 := by
  have place := h.now ready
  have outcome : CallOutcome i b .identify .done b₁ := .of_call called
  cases outcome with
  | identified found shown =>
    rw [Place, found] at place
    obtain ⟨earlier, answers, status, es, _, record, session, set, ws, rfl, talk⟩ := place
    rw [← List.append_assoc] at record
    have now := Kernel.session_of_record record
    exact ⟨_, _, _, _, now.symm ▸ talk, shown.chip, earlier, es, answers, status,
      now.symm ▸ record, session, set⟩

end InPlace

/-- From an idle chip on, calls of both operations in any order. The line is asserted and released
in turn, from the settings of the device on and up to their release, and it is asserted exactly
while the chip is not idle. A wait is over only if the one status byte that came in since the last
selection is ready. An identification is over only after a ready status byte, with the four bytes
that came in after the command that asks for the id. Only a call that would leave a conversation
of the other operation can fail: where faults are fatal it does so with nothing changed. -/
theorem mixed_conversations_stay_framed {i : Nat} {b b₁ : Board} {ids : List (UInt8 × UInt8)}
    (idle : (b.chip i).step = .idle) (history : History i b ids b₁) :
    let d := (b.chip i).device
    (b₁.chip i).device = d ∧
    (∃ seen, b₁.kernel.record d = b.kernel.record d ++ seen ∧
      (∃ n, seen.filterMap (Event.edge? d.line) =
          (List.range n).map (fun k => decide (k % 2 = 0)) ∧
        ((b₁.chip i).isIdle = false ↔ n % 2 = 1)) ∧
      (∀ before after, seen = before ++ .selected d.line :: after →
        ∃ earlier, before = earlier ++ [.loaded d.bus d.regs]) ∧
      (∀ before after, seen = before ++ .deselected d.line :: after →
        ∃ later, after = .unloaded d.bus d.regs :: later)) ∧
    ((b₁.masters.get d.bus).status = .ok →
      (∀ b₂, awaitChip i b₁ = .ok .done b₂ →
        ∃ status, Wire.Talk 0xd7 [status] (b₁.kernel.session d) ∧ status &&& 0x80 ≠ 0) ∧
      (∀ b₂, identifyChip i b₁ = .ok .done b₂ →
        ∃ manufacturer device part extra,
          Wire.Talk 0x9f [manufacturer, device, part, extra] (b₁.kernel.session d) ∧
          b₂.chip i = ({ b₁.chip i with step := .idle } : Chip).identified manufacturer device ∧
          ∃ earlier es answers status,
            b₁.kernel.record d =
              earlier ++ es ++ d.closed ++ d.opened ++ d.traffic (b₁.kernel.session d) ∧
            d.Session 0xd7 (answers ++ [status]) es ∧ status &&& 0x80 ≠ 0)) ∧
    (∀ op, (b₁.strict = false ∨ ∀ other, (b₁.chip i).step.owner? = some other → other = op) →
      ∃ p b₂, call i op b₁ = .ok p b₂) ∧
    ∀ op other, b₁.strict = true → (b₁.chip i).step.owner? = some other → other ≠ op →
      call i op b₁ = .error (.fault (.conversationBroken op (b₁.chip i).step)) b₁ := by
  intro d
  have now := InPlace.of_history idle history
  obtain ⟨seen, split, framed⟩ := now.framed
  refine ⟨now.at_device, ⟨seen, split, ?_, ?_, ?_⟩, fun ready => ⟨?_, ?_⟩, ?_, ?_⟩
  · obtain ⟨n, edges, odd⟩ := framed.alternates
    exact ⟨n, edges, by simpa using odd⟩
  · exact fun before after same => framed.loaded same
  · exact fun before after same => framed.unloaded same
  · exact fun b₂ called => now.await_done ready called
  · exact fun b₂ called => now.identify_done ready called
  · intro op lenient
    obtain ⟨p, b₂, called, -⟩ := call_outcome op lenient
    exact ⟨p, b₂, called⟩
  · intro op other strict owner differs
    exact (call_other op owner differs).2 strict

/-- Calls that answer that there is more to do, with one run of the poll task for the transfer of
each, as long as that completes it. -/
def pendingRuns (i : Nat) : List Flash.Operation → Board → Option Board
  | [], b => some b
  | op :: rest, b =>
    if (b.masters.get (b.chip i).device.bus).status = .ok then
      match call i op b with
      | .ok .pending b₁ => (pollRuns (b₁.chip i).device.bus 1 b₁).bind (pendingRuns i rest)
      | _ => none
    else none

variable {ids : List (UInt8 × UInt8)}

theorem History.pollRuns {n : Nat} (history : History i b ids b₁)
    (ran : pollRuns (b₁.chip i).device.bus n b₁ = some b₂) : History i b ids b₂ := by
  induction n generalizing b₁ with
  | zero =>
    cases ran
    exact history
  | succ n ih =>
    rw [Board.pollRuns] at ran
    split at ran
    · rename_i busy
      split at ran
      · rename_i b' polled
        have turn : QuietTurn i b₁ b' := .poll busy polled
        obtain ⟨ws, shown⟩ := turn.shown
        rw [← shown.chip] at ran
        exact ih (history.turn turn) ran
      · cases ran
    · cases ran

theorem History.pendingRuns {calls : List Flash.Operation} (history : History i b ids b₁)
    (ran : pendingRuns i calls b₁ = some b₂) : History i b ids b₂ := by
  induction calls generalizing b₁ with
  | nil =>
    cases ran
    exact history
  | cons op rest ih =>
    rw [Board.pendingRuns] at ran
    split at ran
    · rename_i ready
      split at ran
      · rename_i b' called
        obtain ⟨b₃, polled, later⟩ := Option.bind_eq_some_iff.mp ran
        have next := history.call ready called
        rw [if_neg (by simp)] at next
        exact ih (next.pollRuns polled) later
      · cases ran
    · cases ran

def ended? (x : Exec Board Progress) (b : Board) : Option Board :=
  match x b with
  | .ok .done b₁ => some b₁
  | _ => none

theorem of_ended {x : Exec Board Progress} (h : ended? x b = some b₁) : x b = .ok .done b₁ := by
  rw [ended?] at h
  split at h
  · rename_i ran
    cases h
    exact ran
  · cases h

/-- An identification is left after its first status byte, which was busy. The wait after it needs
a second round, and then a new identification is made. -/
theorem wait_between_two_identifications :
    let replies : List UInt8 :=
      [0xff, 0x02, 0xff, 0x02, 0xff, 0x82, 0xff, 0x80, 0xff, 0x1f, 0x28, 0, 0]
    let bus : BusPlan := { hardware := .scripted (fun _ => true) replies }
    let b := ({ buses := [bus], chips := [⟨0, .mode0, 1000000⟩], strict := false } : Plan).bootBoard
    let waiting : List Flash.Operation := [.identify, .identify, .await, .await, .await, .await]
    let identifying : List Flash.Operation := [.identify, .identify, .identify, .identify]
    ∃ b₁ b₂ b₃ b₄, pendingRuns 0 waiting b = some b₁ ∧ awaitChip 0 b₁ = .ok .done b₂ ∧
      pendingRuns 0 identifying b₂ = some b₃ ∧ identifyChip 0 b₃ = .ok .done b₄ ∧
      (∃ status, Wire.Talk 0xd7 [status] (b₁.kernel.session (b.chip 0).device) ∧
        status &&& 0x80 ≠ 0) ∧
      ∃ manufacturer device part extra, Wire.Talk 0x9f [manufacturer, device, part, extra]
        (b₃.kernel.session (b.chip 0).device) := by
  intro replies bus b waiting identifying
  have idle : (b.chip 0).step = .idle := by decide +kernel
  have seen : (pendingRuns 0 waiting b).bind (fun b₁ => (ended? (awaitChip 0) b₁).bind fun b₂ =>
      (pendingRuns 0 identifying b₂).bind fun b₃ => (ended? (identifyChip 0) b₃).map fun _ =>
        ((b₁.masters.get 0).status, (b₃.masters.get 0).status)) = some (.ok, .ok) := by
    decide +kernel
  obtain ⟨b₁, ran, seen⟩ := Option.bind_eq_some_iff.mp seen
  obtain ⟨b₂, waited, seen⟩ := Option.bind_eq_some_iff.mp seen
  obtain ⟨b₃, ran', seen⟩ := Option.bind_eq_some_iff.mp seen
  obtain ⟨b₄, identified, seen⟩ := Option.map_eq_some_iff.mp seen
  obtain ⟨ready, ready'⟩ := Prod.mk.inj seen
  have history := History.start.pendingRuns ran
  obtain ⟨at_device, -, ends, -⟩ := mixed_conversations_stay_framed idle history
  have waited' := of_ended waited
  have free : (b₁.masters.get (b₁.chip 0).device.bus).status = .ok := by
    rw [at_device]
    exact ready
  have called : call 0 .await b₁ = .ok .done b₂ := waited'
  have later := (history.call free called).pendingRuns ran'
  obtain ⟨-, -, ends', -⟩ := mixed_conversations_stay_framed idle later
  obtain ⟨manufacturer, device, part, extra, talk, -⟩ := (ends' ready').2 b₄ (of_ended identified)
  exact ⟨b₁, b₂, b₃, b₄, ran, waited', ran', of_ended identified, (ends ready).1 b₂ waited',
    manufacturer, device, part, extra, talk⟩

end Board

end CoopKernel
