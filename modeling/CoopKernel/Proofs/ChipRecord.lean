import CoopKernel.Proofs.ChipCalls
import Mathlib.Data.List.DropRight

/-!
# The record of a device

One list of everything that happens on the bus of a device and on its select
line. The bytes that come in keep their place in it, so it says which of them
came in since the line was last selected.
-/

namespace CoopKernel

open Spi

namespace Device

def opened (d : Device) : List Event := [.loaded d.bus d.regs, .selected d.line]

def closed (d : Device) : List Event := [.deselected d.line, .unloaded d.bus d.regs]

def traffic (d : Device) (ws : List Wire) : List Event := ws.map (Event.wire d.bus)

theorem traffic_append (d : Device) (ws more : List Wire) :
    d.traffic (ws ++ more) = d.traffic ws ++ d.traffic more := List.map_append

end Device

namespace Event

def concerns (d : Device) : Event → Bool
  | loaded bus _ | unloaded bus _ | wire bus _ => bus = d.bus
  | selected line | deselected line => line = d.line
  | _ => false

/-- Whether the line was asserted; other events say nothing of it. -/
def edge? (line : Nat) : Event → Option Bool
  | selected l => if l = line then some true else none
  | deselected l => if l = line then some false else none
  | _ => none

theorem mark_of_unconcerned {e : Event} {d : Device} (away : e.concerns d = false) :
    e.mark? d = none := by
  cases e <;> simp_all [concerns, mark?]

theorem wire_of_unconcerned {e : Event} {d : Device} (away : e.concerns d = false) :
    e.wire? d.bus = none := by
  cases e <;> simp_all [concerns, wire?]

end Event

namespace Kernel

variable {k k' : Kernel} {d : Device}

def record (d : Device) (k : Kernel) : List Event := (k.trace.filter (Event.concerns d)).reverse

/-- The traffic since the line of a device was last selected. -/
def session (d : Device) (k : Kernel) : List Wire :=
  ((k.record d).rtakeWhile (· ≠ .selected d.line)).filterMap (Event.wire? d.bus)

/-- The first two bytes that came in since then, after the one that came in with the command. -/
def idBytes (d : Device) (k : Kernel) : UInt8 × UInt8 :=
  let answers := (Wire.received (k.session d)).drop 1
  (answers.getD 0 0, answers.getD 1 0)

theorem filterMap_record {α : Type} (f : Event → Option α)
    (away : ∀ e : Event, e.concerns d = false → f e = none) (k : Kernel) :
    (k.record d).filterMap f = (k.trace.filterMap f).reverse := by
  rw [record, List.filterMap_reverse, List.filterMap_filter]
  refine congrArg List.reverse (List.filterMap_congr fun e _ => ?_)
  cases concerned : e.concerns d with
  | true => rfl
  | false => exact (away e concerned).symm

theorem marks_eq (d : Device) (k : Kernel) :
    k.marks d = (k.record d).filterMap (Event.mark? d) :=
  (filterMap_record _ (fun _ => Event.mark_of_unconcerned) k).symm

theorem wires_eq (d : Device) (k : Kernel) :
    k.wires d.bus = (k.record d).filterMap (Event.wire? d.bus) :=
  (filterMap_record _ (fun _ => Event.wire_of_unconcerned) k).symm

theorem filterMap_traffic (d : Device) (ws : List Wire) :
    (d.traffic ws).filterMap (Event.wire? d.bus) = ws := by
  rw [Device.traffic, List.filterMap_map]
  have one : Event.wire? d.bus ∘ Event.wire d.bus = some := by
    funext w
    simp [Event.wire?]
  rw [one, List.filterMap_some]

theorem marks_traffic (d : Device) (ws : List Wire) :
    (d.traffic ws).filterMap (Event.mark? d) = (Wire.sent ws).map .sent := by
  rw [Device.traffic, List.filterMap_map, Wire.sent, List.map_filterMap]
  exact List.filterMap_congr fun w _ => by simp [Event.mark?]

theorem record_of_plain {events : List Event} (d : Device)
    (trace : k'.trace = events ++ k.trace) (plain : ∀ e ∈ events, e.isFraming = false) :
    ∃ ws, k'.record d = k.record d ++ d.traffic ws := by
  refine ⟨(events.filterMap (Event.wire? d.bus)).reverse, ?_⟩
  have wires : events.filter (Event.concerns d) =
      (events.filterMap (Event.wire? d.bus)).map (Event.wire d.bus) := by
    rw [List.map_filterMap, ← List.filterMap_eq_filter]
    refine List.filterMap_congr fun e mem => ?_
    have unframed := plain e mem
    cases e with
    | wire bus w => by_cases same : bus = d.bus <;> simp [Event.concerns, Event.wire?, same]
    | loaded _ _ => cases unframed
    | unloaded _ _ => cases unframed
    | selected _ => cases unframed
    | deselected _ => cases unframed
    | _ => rfl
  rw [record, trace, List.filter_append, List.reverse_append, wires, Device.traffic,
    List.map_reverse, record]

theorem session_of_record {earlier : List Event} {ws : List Wire}
    (split : k.record d = earlier ++ d.opened ++ d.traffic ws) : k.session d = ws := by
  have since : (k.record d).rtakeWhile (· ≠ .selected d.line) = d.traffic ws := by
    have words : ∀ e ∈ (d.traffic ws).reverse, decide (e ≠ .selected d.line) = true := by
      intro e mem
      obtain ⟨w, -, rfl⟩ := List.mem_map.mp (List.mem_reverse.mp mem)
      simp
    rw [split, List.rtakeWhile, List.reverse_append, List.takeWhile_append_of_pos words]
    simp [Device.opened]
  rw [session, since, filterMap_traffic]

end Kernel

namespace Wire

/-- A command goes out, and the byte that comes in with it says nothing. Then zeros go out, and
what comes in is the answer. -/
def Talk (opcode : UInt8) (answers : List UInt8) (ws : List Wire) : Prop :=
  ∃ command rest, ws = command ++ rest ∧ sent command = [opcode] ∧ (received command).length = 1 ∧
    sent rest = List.replicate answers.length 0 ∧ received rest = answers

variable {opcode : UInt8} {answers got : List UInt8} {ws later : List Wire}

theorem Talk.asked (out : sent ws = [opcode]) (one : (received ws).length = 1) :
    Talk opcode [] ws := ⟨ws, [], (List.append_nil ws).symm, out, one, rfl, rfl⟩

theorem Talk.more (h : Talk opcode answers ws) (came : received later = got)
    (out : sent later = List.replicate got.length 0) :
    Talk opcode (answers ++ got) (ws ++ later) := by
  obtain ⟨command, rest, rfl, asked, one, zeros, answered⟩ := h
  refine ⟨command, rest ++ later, List.append_assoc .., asked, one, ?_, ?_⟩
  · rw [sent_append, zeros, out, List.length_append, List.replicate_append_replicate]
  · rw [received_append, answered, came]

theorem Talk.received (h : Talk opcode answers ws) : (Wire.received ws).drop 1 = answers := by
  obtain ⟨command, rest, rfl, -, one, -, answered⟩ := h
  rw [received_append, answered]
  exact List.drop_left' one

end Wire

/-- What is noted of a talk, from the selection of the line on. -/
def Device.Session (d : Device) (opcode : UInt8) (answers : List UInt8) (es : List Event) : Prop :=
  ∃ ws, es = d.opened ++ d.traffic ws ∧ Wire.Talk opcode answers ws

theorem Device.Session.more {d : Device} {opcode : UInt8} {answers got : List UInt8}
    {es : List Event} {more : List Wire} (h : d.Session opcode answers es)
    (came : Wire.received more = got) (out : Wire.sent more = List.replicate got.length 0) :
    d.Session opcode (answers ++ got) (es ++ d.traffic more) := by
  obtain ⟨ws, rfl, talk⟩ := h
  exact ⟨ws ++ more, by rw [traffic_append, List.append_assoc], talk.more came out⟩

namespace Board

variable {b b' b₁ : Board} {i : Nat} {d : Device} {c c' : Chip} {es es' : List Event}

/-- A run of the poll task of the chip's bus, or anything that leaves the chip, its scratch cells
and its transfer alone and of which nothing is noted. -/
inductive QuietTurn (i : Nat) : Board → Board → Prop where
  | others {b b' : Board} (apart : Apart (b.chip i).Owns (b.chip i).device.bus b b')
    (chip : b'.chip i = b.chip i)
    (record : b'.kernel.record (b.chip i).device = b.kernel.record (b.chip i).device) :
    QuietTurn i b b'
  | poll {b b' : Board} (busy : (b.masters.get (b.chip i).device.bus).status = .inProgress)
    (ran : runPoller (b.chip i).device.bus b = .ok () b') : QuietTurn i b b'

abbrev QuietTurns (i : Nat) : Board → Board → Prop := Relation.ReflTransGen (QuietTurn i)

theorem QuietTurn.chipTurn (turn : QuietTurn i b b') : ChipTurn i b b' := by
  cases turn with
  | others apart chip record =>
    refine .others apart chip ?_
    rw [Kernel.marks_eq, record, Kernel.marks_eq]
  | poll busy ran => exact .poll busy ran

/-- From one board to another: the chip as it is then, and what was noted. -/
structure Shown (i : Nat) (d : Device) (c : Chip) (es : List Event) (b b' : Board) : Prop where
  chip : b'.chip i = c
  record : b'.kernel.record d = b.kernel.record d ++ es

theorem Shown.trans (h : Shown i d c es b b₁) (h' : Shown i d c' es' b₁ b') :
    Shown i d c' (es ++ es') b b' where
  chip := h'.chip
  record := by rw [h'.record, h.record, List.append_assoc]

theorem Plain.shown (h : Plain b b') (now : b.chip i = c) (d : Device) :
    ∃ ws, Shown i d c (d.traffic ws) b b' := by
  obtain ⟨chips, events, trace, plain⟩ := h
  obtain ⟨ws, record⟩ := Kernel.record_of_plain d trace plain
  refine ⟨ws, ?_, record⟩
  rw [chip, chips]
  exact now

theorem QuietTurn.shown (turn : QuietTurn i b b') :
    ∃ ws, Shown i (b.chip i).device (b.chip i) ((b.chip i).device.traffic ws) b b' := by
  cases turn with
  | others apart chip record => exact ⟨[], chip, by simpa [Device.traffic] using record⟩
  | poll busy ran => exact (plain_runPoller ran).shown rfl _

/-- By induction on the turns: all that is noted is traffic. -/
theorem quietTurns_shown (turns : QuietTurns i b b') :
    ChipTurns i b b' ∧
      ∃ ws, Shown i (b.chip i).device (b.chip i) ((b.chip i).device.traffic ws) b b' := by
  induction turns with
  | refl => exact ⟨.refl, [], rfl, (List.append_nil _).symm⟩
  | tail _ turn ih =>
    obtain ⟨turns, ws, shown⟩ := ih
    obtain ⟨more, next⟩ := turn.shown
    rw [shown.chip] at next
    refine ⟨turns.tail turn.chipTurn, ws ++ more, ?_⟩
    rw [Device.traffic_append]
    exact shown.trans next

/-- After `es` was noted a transfer was started that sends `out`. When it is complete, `answer`
holds of what came in meanwhile. -/
structure Exchanges (i : Nat) (c : Chip) (es : List Event) (out : List UInt8)
    (answer : List UInt8 → Board → Prop) (b b₁ : Board) : Prop where
  busy : (b₁.masters.get c.device.bus).status = .inProgress
  begun : ∃ ws, Shown i c.device c (es ++ c.device.traffic ws) b b₁
  complete : ∀ b₂, QuietTurns i b₁ b₂ → (b₂.masters.get c.device.bus).status = .ok →
    ∃ ws, Shown i c.device c (es ++ c.device.traffic ws) b b₂ ∧ Wire.sent ws = out ∧
      answer (Wire.received ws) b₂

variable {out : List UInt8} {answer : List UInt8 → Board → Prop}

theorem Exchanges.after (h : Exchanges i c es' out answer b₁ b')
    (before : Shown i c.device c' es b b₁) : Exchanges i c (es ++ es') out answer b b' := by
  obtain ⟨busy, ⟨ws, begun⟩, complete⟩ := h
  refine ⟨busy, ⟨ws, ?_⟩, fun b₂ turns done => ?_⟩
  · rw [List.append_assoc]
    exact before.trans begun
  · obtain ⟨ws, shown, sent, answered⟩ := complete b₂ turns done
    refine ⟨ws, ?_, sent, answered⟩
    rw [List.append_assoc]
    exact before.trans shown

theorem Converses.exchanges (h : Converses i c (out.map .sent) answer b b₁) (now : b.chip i = c)
    (plain : Plain b b₁) : Exchanges i c [] out answer b b₁ := by
  obtain ⟨busy, complete⟩ := h
  obtain ⟨first, begun⟩ := plain.shown now c.device
  refine ⟨busy, ⟨first, begun⟩, fun b₂ turns done => ?_⟩
  obtain ⟨chipTurns, later, shown⟩ := quietTurns_shown turns
  rw [begun.chip] at shown
  obtain ⟨got, talk, answered⟩ := complete b₂ chipTurns done
  have whole := begun.trans shown
  rw [← Device.traffic_append] at whole
  refine ⟨first ++ later, whole, ?_, ?_⟩
  · have marks := talk.marks
    rw [Kernel.marks_eq, whole.record, List.filterMap_append, ← Kernel.marks_eq,
      Kernel.marks_traffic] at marks
    exact (List.map_injective_iff.mpr fun _ _ => ChipMark.sent.inj)
      (List.append_cancel_left marks)
  · have heard := talk.heard
    rw [Kernel.heard, Kernel.wires_eq, whole.record, List.filterMap_append, ← Kernel.wires_eq,
      Kernel.filterMap_traffic, Wire.received_append, ← Kernel.heard] at heard
    rw [List.append_cancel_left heard]
    exact answered

theorem sendScratch_exchanges (now : b.chip i = c) (bytes : List UInt8) (some : bytes ≠ [])
    (fits : bytes.length ≤ 5) :
    ∃ b₁, sendScratch i bytes b = .ok () b₁ ∧
      Exchanges i c [] bytes (fun got _ => got.length = bytes.length) b b₁ := by
  obtain ⟨b₁, started, conversed⟩ := sendScratch_converses now bytes some fits
  have plain := plain_start (t := .write (.cells ⟨(b.chip i).scratch, bytes.length⟩)) rfl started
  exact ⟨b₁, started, conversed.exchanges now ⟨plain.chips, plain.trace⟩⟩

theorem readScratch_exchanges (now : b.chip i = c) (n : Nat) (some : n ≠ 0) (fits : n ≤ 5) :
    ∃ b₁, readScratch i n b = .ok () b₁ ∧
      Exchanges i c [] (List.replicate n 0)
        (fun got b₂ => got = (List.range n).map fun k => b₂.scratch i k) b b₁ := by
  obtain ⟨b₁, started, conversed⟩ := readScratch_converses now n some fits
  have plain := plain_start (t := .read ⟨(b.chip i).scratch, n⟩) rfl started
  rw [← List.map_replicate] at conversed
  exact ⟨b₁, started, conversed.exchanges now plain⟩

end Board

end CoopKernel
